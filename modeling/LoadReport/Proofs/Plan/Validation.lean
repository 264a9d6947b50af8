import LoadReport.Plan.Validation
import LoadReport.Proofs.Except
import LoadReport.Proofs.Number.Order
import LoadReport.Proofs.Url.Grammar

/-!
# What a validated plan obeys

Every rule of validation is an objection, and for every objection that is not
made some condition holds of the plan. For texts and types that is the rule
turned around. For a number it is not: the objection is a comparison, and NaN
compares with nothing, so what is left where no objection is made is "at least
the bound, or NaN" (`Number.lt_eq_false_iff`, `Number.le_eq_false_iff`).

- `checkFields_eq_ok_iff` goes through the rules once, and is an equivalence:
  nothing else is asked of the fields than `Obeys` says with NaN let off.
- `obeys_of_validate` draws the line: a validated plan can be run unless one
  of the figures that its test uses is NaN, and `validate_of_nan_duration` is
  a plan that is behind this line.
- The URL comes last. Where the fields are in order it decides alone, and for
  a plain URL it does so by its scheme and authority (`validate_iff_isWeb`).
-/

namespace LoadReport
namespace Plan

variable {p : Plan}

/-- The conditions on the fields of a plan, where some numbers may be let
off. -/
structure Obeys (letOff : Number → Bool) (p : Plan) : Prop where
  connections : letOff p.connections = true ∨ (Number.int 1).le p.connections = true
  testType : ∃ type, p.testType = .known type
  duration : p.testType = .known .byDuration →
    letOff p.duration = true ∨ (Number.int 0).lt p.duration = true
  requests : p.testType = .known .byRequestCount →
    letOff p.requests = true ∨ (Number.int 1).le p.requests = true
  timeout : letOff p.timeout = true ∨ (Number.int 0).le p.timeout = true
  body : p.body = "" ∨ p.bodyFile = ""
  certificate : p.certPath = "" ↔ p.keyPath = ""
  rate : ∀ rate, p.rate = some rate → letOff rate = true ∨ (Number.int 0).lt rate = true

/-- The conditions on the fields of a plan without exception. -/
def Runnable (p : Plan) : Prop := p.Obeys fun _ => false

/-- The number that ends the test. -/
def endFigures (p : Plan) : List Number :=
  match p.testType with
  | .known .byDuration => [p.duration]
  | .known .byRequestCount => [p.requests]
  | .text _ => []

/-- The numbers that a run of the plan uses. -/
def figures (p : Plan) : List Number :=
  p.connections :: p.timeout :: (p.endFigures ++ p.rate.toList)

/-! ## Rule by rule -/

theorem checkEnd_eq_ok_iff : p.checkEnd = .ok () ↔
    (∃ type, p.testType = .known type)
      ∧ (p.testType = .known .byDuration →
        p.duration.isNan = true ∨ (Number.int 0).lt p.duration = true)
      ∧ (p.testType = .known .byRequestCount →
        p.requests.isNan = true ∨ (Number.int 1).le p.requests = true) := by
  unfold checkEnd
  cases p.testType with
  | text type => simp
  | known type =>
      cases type with
      | byDuration => simp [refuseNumberIf_eq_ok_iff, Number.le_eq_false_iff (b := .int 0) rfl]
      | byRequestCount =>
          simp [refuseNumberIf_eq_ok_iff, Number.lt_eq_false_iff (b := .int 1) rfl]

theorem not_both_iff {s t : String} : (!s.isEmpty && !t.isEmpty) = false ↔ s = "" ∨ t = "" := by
  simp [Decidable.or_iff_not_imp_left]

theorem both_or_neither_iff {s t : String} :
    (!s.isEmpty && t.isEmpty) = false ∧ (s.isEmpty && !t.isEmpty) = false ↔
      (s = "" ↔ t = "") := by
  by_cases hs : s = "" <;> by_cases ht : t = "" <;> simp [hs, ht]

theorem checkRate_eq_ok_iff : p.checkRate = .ok () ↔
    ∀ rate, p.rate = some rate → rate.isNan = true ∨ (Number.int 0).lt rate = true := by
  unfold checkRate
  cases p.rate with
  | none => simp
  | some rate => simp [refuseNumberIf_eq_ok_iff, Number.le_eq_false_iff (b := .int 0) rfl]

/-- The rules are met exactly where the conditions hold with NaN let off. -/
theorem checkFields_eq_ok_iff : p.checkFields = .ok () ↔ p.Obeys Number.isNan := by
  unfold checkFields
  simp only [Except.andThen_eq_ok_iff, refuseIf_eq_ok_iff, refuseNumberIf_eq_ok_iff,
    checkEnd_eq_ok_iff, checkRate_eq_ok_iff, Number.lt_eq_false_iff (b := .int 1) rfl,
    Number.lt_eq_false_iff (b := .int 0) rfl, not_both_iff]
  constructor
  · rintro ⟨hconnections, ⟨htype, hduration, hrequests⟩, htimeout, hbody, hkey, hcert, hrate⟩
    exact ⟨hconnections, htype, hduration, hrequests, htimeout, hbody,
      both_or_neither_iff.mp ⟨hkey, hcert⟩, hrate⟩
  · intro h
    obtain ⟨hkey, hcert⟩ := both_or_neither_iff.mpr h.certificate
    exact ⟨h.connections, ⟨h.testType, h.duration, h.requests⟩, h.timeout, h.body, hkey, hcert,
      h.rate⟩

/-! ## NaN -/

theorem Runnable.isNan_of_mem_figures (h : p.Runnable) : ∀ n ∈ p.figures, n.isNan = false := by
  have hend : ∀ n ∈ p.endFigures, n.isNan = false := by
    unfold endFigures
    split
    · next htimed =>
        have hduration := (h.duration htimed).resolve_left Bool.false_ne_true
        simpa using Number.isNan_of_lt_right hduration
    · next hcounted =>
        have hrequests := (h.requests hcounted).resolve_left Bool.false_ne_true
        simpa using Number.isNan_of_le_right hrequests
    · simp
  intro n hn
  simp only [figures, List.mem_cons, List.mem_append] at hn
  rcases hn with rfl | rfl | hn | hn
  · exact Number.isNan_of_le_right (h.connections.resolve_left Bool.false_ne_true)
  · exact Number.isNan_of_le_right (h.timeout.resolve_left Bool.false_ne_true)
  · exact hend n hn
  · have hrate := h.rate n (Option.mem_toList.mp hn)
    exact Number.isNan_of_lt_right (hrate.resolve_left Bool.false_ne_true)

theorem Obeys.runnable (h : p.Obeys Number.isNan) (hnan : ∀ n ∈ p.figures, n.isNan = false) :
    p.Runnable := by
  have hsure : ∀ {n : Number} {good : Bool}, n ∈ p.figures → n.isNan = true ∨ good = true →
      (fun _ : Number => false) n = true ∨ good = true := by
    intro n good hn hor
    rcases hor with hn' | hgood
    · rw [hnan n hn] at hn'
      cases hn'
    · exact .inr hgood
  refine ⟨hsure ?_ h.connections, h.testType, fun htimed => hsure ?_ (h.duration htimed),
    fun hcounted => hsure ?_ (h.requests hcounted), hsure ?_ h.timeout, h.body, h.certificate,
    fun rate hrate => hsure ?_ (h.rate rate hrate)⟩
  · simp [figures]
  · simp [figures, endFigures, htimed]
  · simp [figures, endFigures, hcounted]
  · simp [figures]
  · simp [figures, hrate]

/-- **A validated plan can be run unless it is about NaN.** It obeys every rule
but for numbers that are NaN, and it obeys them all exactly if no number that
its run uses is NaN. -/
theorem obeys_of_validate (h : p.validate = .ok ()) :
    p.Obeys Number.isNan ∧ (p.Runnable ↔ ∀ n ∈ p.figures, n.isNan = false) := by
  have hobeys := checkFields_eq_ok_iff.mp (Except.andThen_eq_ok_iff.mp h).1
  exact ⟨hobeys, Runnable.isNan_of_mem_figures, hobeys.runnable⟩

/-- A counted test: that its duration is NaN does not matter. -/
theorem obeys_of_validate_counted :
    Plan.validate { url := "http://localhost", testType := .known .byRequestCount,
                    requests := .int 5, duration := .float .nan } = .ok ()
      ∧ Plan.Runnable { url := "http://localhost", testType := .known .byRequestCount,
                        requests := .int 5, duration := .float .nan } := by
  have hvalid : Plan.validate { url := "http://localhost", testType := .known .byRequestCount,
                                requests := .int 5, duration := .float .nan } = .ok () :=
    Except.toOption_eq_some_iff.mp (by decide +kernel)
  exact ⟨hvalid, (obeys_of_validate hvalid).2.mpr (by decide +kernel)⟩

/-- A timed test of NaN seconds: no objection is made, and the duration is not
positive. -/
theorem validate_of_nan_duration :
    Plan.validate { url := "http://localhost", duration := .float .nan } = .ok ()
      ∧ (Number.int 0).lt (.float .nan) = false
      ∧ ¬ Plan.Runnable { url := "http://localhost", duration := .float .nan } := by
  refine ⟨Except.toOption_eq_some_iff.mp (by decide +kernel), rfl, fun h => ?_⟩
  rcases h.duration rfl with hlet | hpositive
  · cases hlet
  · cases hpositive

/-! ## The URL -/

theorem checkUrl_of_plain (h : Url.IsPlain p.url.toList) :
    p.checkUrl
      = refuseIf (!Url.isHttp (Url.target (Url.clean p.url.toList))) (.invalidUrl p.url) := by
  rw [checkUrl, Url.split_of_plain h]

theorem validate_of_checkFields (h : p.checkFields = .ok ()) : p.validate = p.checkUrl := by
  rw [validate, h]
  rfl

theorem validate_eq_ok_of_plain (hfields : p.checkFields = .ok ())
    (hplain : Url.IsPlain p.url.toList) :
    p.validate = .ok () ↔ Url.IsWeb (Url.clean p.url.toList) := by
  rw [validate_of_checkFields hfields, checkUrl_of_plain hplain, refuseIf_eq_ok_iff,
    Bool.not_eq_false', Url.isHttp_target_iff]

/-- **A plain URL is accepted for its scheme and its authority alone.** Where
nothing else is to be objected to, it is accepted exactly if it is a URL of the
web once it is cleaned, and refused as invalid if it is not. What stands behind
the authority makes no difference. -/
theorem validate_iff_isWeb (hfields : p.checkFields = .ok ())
    (hplain : Url.IsPlain p.url.toList) :
    (p.validate = .ok () ↔ Url.IsWeb (Url.clean p.url.toList))
      ∧ (¬ Url.IsWeb (Url.clean p.url.toList) → p.validate = .error (.invalidUrl p.url))
      ∧ ∀ url, Url.IsPlain url.toList →
          Url.AgreeUpToAuthority (Url.clean p.url.toList) (Url.clean url.toList) →
          (Plan.validate { p with url := url } = .ok () ↔ p.validate = .ok ()) := by
  have haccepted := validate_eq_ok_of_plain hfields hplain
  refine ⟨haccepted, fun hnot => ?_, fun url hurl hagree => ?_⟩
  · have hhttp : Url.isHttp (Url.target (Url.clean p.url.toList)) = false :=
      Bool.eq_false_iff.mpr fun h => hnot (Url.isHttp_target_iff.mp h)
    rw [validate_of_checkFields hfields, checkUrl_of_plain hplain, hhttp]
    rfl
  · have hother : Plan.validate { p with url := url } = .ok () ↔ Url.IsWeb (Url.clean url.toList) :=
      validate_eq_ok_of_plain hfields hurl
    rw [hother, haccepted, Url.isWeb_iff_of_agree hagree]

/-- A blank in front, capitals, a line end between the slashes; then the same
host with a fragment in place of a path and a query. -/
theorem validate_iff_isWeb_blank :
    Plan.checkFields { url := " hTTp:/\n/a:80/b?c" } = .ok ()
      ∧ Url.IsPlain " hTTp:/\n/a:80/b?c".toList
      ∧ Plan.validate { url := " hTTp:/\n/a:80/b?c" } = .ok ()
      ∧ Plan.validate { url := "hTTp://a:80#d" } = .ok () := by
  have hfields : Plan.checkFields { url := " hTTp:/\n/a:80/b?c" } = .ok () :=
    Except.toOption_eq_some_iff.mp (by decide +kernel)
  have hplain : Url.IsPlain " hTTp:/\n/a:80/b?c".toList := by decide +kernel
  have hplain' : Url.IsPlain "hTTp://a:80#d".toList := by decide +kernel
  have hclean : Url.clean " hTTp:/\n/a:80/b?c".toList
      = ['h', 'T', 'T', 'p'] ++ ':' :: '/' :: '/' ::
        (['a', ':', '8', '0'] ++ ['/', 'b', '?', 'c']) := by
    decide +kernel
  have hclean' : Url.clean "hTTp://a:80#d".toList
      = ['h', 'T', 'T', 'p'] ++ ':' :: '/' :: '/' :: (['a', ':', '8', '0'] ++ ['#', 'd']) := by
    decide +kernel
  obtain ⟨haccepted, -, hagree⟩ := validate_iff_isWeb hfields hplain
  have hvalid : Plan.validate { url := " hTTp:/\n/a:80/b?c" } = .ok () := by
    rw [haccepted, hclean]
    exact ⟨_, 'a', _, rfl, .inl rfl, by simp⟩
  refine ⟨hfields, hplain, hvalid, (hagree "hTTp://a:80#d" hplain' ?_).mpr hvalid⟩
  rw [hclean, hclean']
  exact ⟨_, _, _, _, by simp, by simp, by simp, by simp, rfl, rfl⟩

end Plan
end LoadReport
