import Mathlib.Data.List.TakeWhile
import LoadReport.Url.Basic

/-!
# The grammar of web URLs

Scanning a URL is a sequence of searches: for the first colon, for characters
that no scheme has, for two slashes, for the end of the authority. What is
found in the end is one shape (`IsWeb`): a web scheme, `://`, and a character
that belongs to the authority.

- **From the shape to the scan.** A web scheme consists of letters
  (`all_isAlpha_of_isWebScheme`), so it has no colon, the search for the first
  one passes over it (`splitScheme_append`), and it is a scheme.
- **From the scan to the shape.** What the scan splits off is put together
  again, character by character (`exists_of_authorityOf`).

For a URL in ASCII without brackets nothing else is checked
(`split_of_plain`). What follows the authority is not looked at at all
(`isWeb_append_iff`).
-/

namespace LoadReport
namespace Url

variable {text scheme authority tail : List Char} {c : Char}

/-- The two schemes of the web, in any case. -/
def IsWebScheme (scheme : List Char) : Prop :=
  scheme.map Char.toLower = ['h', 't', 't', 'p']
    ∨ scheme.map Char.toLower = ['h', 't', 't', 'p', 's']

/-- A web scheme, a colon, two slashes, and at least one character of an
authority. -/
def IsWeb (text : List Char) : Prop :=
  ∃ scheme first rest, text = scheme ++ ':' :: '/' :: '/' :: first :: rest
    ∧ IsWebScheme scheme ∧ first ∉ ['/', '?', '#']

/-- ASCII without square brackets. -/
def IsPlain (text : List Char) : Prop :=
  ∀ c ∈ text, c.toNat < 128 ∧ c ≠ '[' ∧ c ≠ ']'

theorem isPlain_iff_all :
    IsPlain text ↔ (text.all fun c => decide (c.toNat < 128 ∧ c ≠ '[' ∧ c ≠ ']')) = true := by
  simp only [IsPlain, List.all_eq_true, decide_eq_true_eq]

instance (text : List Char) : Decidable (IsPlain text) :=
  decidable_of_iff _ isPlain_iff_all.symm

theorem endsAuthority_iff : endsAuthority c = true ↔ c ∈ ['/', '?', '#'] := by
  simp [endsAuthority, or_assoc]

theorem not_endsAuthority_iff : (!endsAuthority c) = true ↔ c ∉ ['/', '?', '#'] := by
  rw [Bool.not_eq_true', ← Bool.not_eq_true, endsAuthority_iff]

/-! ## Schemes -/

theorem isAlpha_of_toLower (h : c.toLower.isAlpha = true) : c.isAlpha = true := by
  unfold Char.toLower at h
  split at h
  · next hupper =>
      have hletter : c.isUpper = true := decide_eq_true hupper
      exact Bool.or_eq_true_iff.mpr (.inl hletter)
  · exact h

theorem IsWebScheme.isAlpha (h : IsWebScheme scheme) : ∀ c ∈ scheme, c.isAlpha = true := by
  have hlower : (scheme.map Char.toLower).all Char.isAlpha = true := by
    rcases h with h | h <;> rw [h] <;> rfl
  intro c hc
  exact isAlpha_of_toLower (List.all_eq_true.mp hlower _ (List.mem_map_of_mem hc))

theorem IsWebScheme.ne_colon (h : IsWebScheme scheme) : ∀ c ∈ scheme, c ≠ ':' := by
  rintro c hc rfl
  exact nomatch h.isAlpha ':' hc

theorem IsWebScheme.isScheme (h : IsWebScheme scheme) : isScheme scheme = true := by
  have hne : scheme ≠ [] := by
    rintro rfl
    rcases h with h | h <;> cases h
  obtain ⟨c, rest, rfl⟩ := List.exists_cons_of_ne_nil hne
  have halpha := h.isAlpha
  refine Bool.and_eq_true_iff.mpr ⟨halpha c (List.mem_cons_self ..), List.all_eq_true.mpr ?_⟩
  intro d hd
  simp [isSchemeChar, Char.isAlphanum, halpha d (List.mem_cons_of_mem _ hd)]

/-- The first colon is where the scheme ends. -/
theorem splitScheme_append (hcolon : ∀ c ∈ scheme, c ≠ ':') (rest : List Char) :
    splitScheme (scheme ++ ':' :: rest)
      = if isScheme scheme then (scheme.map Char.toLower, rest)
        else ([], scheme ++ ':' :: rest) := by
  have hinside : ∀ c ∈ scheme, decide (c ≠ ':') = true :=
    fun c hc => decide_eq_true (hcolon c hc)
  unfold splitScheme
  rw [List.takeWhile_append_of_pos hinside, List.dropWhile_append_of_pos hinside]
  simp

theorem splitScheme_of_not_mem (h : ':' ∉ text) : splitScheme text = ([], text) := by
  have hnone : text.dropWhile (· ≠ ':') = [] :=
    List.dropWhile_eq_nil_iff.mpr fun c hc => decide_eq_true (ne_of_mem_of_not_mem hc h)
  simp only [splitScheme, hnone]

/-! ## Authorities -/

theorem authorityOf_eq (rest : List Char) :
    authorityOf ('/' :: '/' :: rest) = rest.takeWhile fun c => !endsAuthority c := rfl

theorem exists_of_authorityOf (h : authorityOf text ≠ []) :
    ∃ first rest, text = '/' :: '/' :: first :: rest ∧ first ∉ ['/', '?', '#'] := by
  unfold authorityOf at h
  split at h
  · next rest =>
      cases rest with
      | nil => exact absurd rfl h
      | cons first rest =>
          refine ⟨first, rest, rfl, fun hends => h ?_⟩
          exact List.takeWhile_cons_of_neg fun hpass => not_endsAuthority_iff.mp hpass hends
  · exact absurd rfl h

theorem authorityOf_ne_nil {first : Char} (h : first ∉ ['/', '?', '#']) (rest : List Char) :
    authorityOf ('/' :: '/' :: first :: rest) ≠ [] := by
  rw [authorityOf_eq, List.takeWhile_cons_of_pos (p := fun c => !endsAuthority c)
    (not_endsAuthority_iff.mpr h)]
  exact List.cons_ne_nil _ _

/-- An authority goes on up to the first character that ends one. -/
theorem authorityOf_append (hauthority : ∀ c ∈ authority, c ∉ ['/', '?', '#'])
    (htail : ∀ c, tail.head? = some c → c ∈ ['/', '?', '#']) :
    authorityOf ('/' :: '/' :: (authority ++ tail)) = authority := by
  have hstop : (tail.takeWhile fun c => !endsAuthority c) = [] := by
    cases tail with
    | nil => rfl
    | cons c rest =>
        exact List.takeWhile_cons_of_neg fun hpass =>
          not_endsAuthority_iff.mp hpass (htail c rfl)
  rw [authorityOf_eq, List.takeWhile_append_of_pos fun c hc =>
    not_endsAuthority_iff.mpr (hauthority c hc), hstop, List.append_nil]

/-! ## The whole URL -/

/-- The target that the scan of a cleaned URL finds. -/
def target (text : List Char) : UrlTarget where
  scheme := (splitScheme text).1
  authority := authorityOf (splitScheme text).2

theorem isHttp_iff {t : UrlTarget} :
    isHttp t = true ↔
      (t.scheme = ['h', 't', 't', 'p'] ∨ t.scheme = ['h', 't', 't', 'p', 's'])
        ∧ t.authority ≠ [] := by
  simp [isHttp]

/-- The scan finds a target on the web exactly in the URLs of the grammar. -/
theorem isHttp_target_iff : isHttp (target text) = true ↔ IsWeb text := by
  rw [isHttp_iff]
  constructor
  · rintro ⟨hscheme, hauthority⟩
    by_cases hcolon : ':' ∈ text
    · obtain ⟨name, rest, rfl, hname⟩ := List.eq_append_cons_of_mem hcolon
      have hinside : ∀ c ∈ name, c ≠ ':' := fun c hc => ne_of_mem_of_not_mem hc hname
      simp only [target, splitScheme_append hinside] at hscheme hauthority
      split at hscheme
      · next hok =>
          rw [if_pos hok] at hauthority
          obtain ⟨first, rest, rfl, hfirst⟩ := exists_of_authorityOf hauthority
          exact ⟨name, first, rest, rfl, hscheme, hfirst⟩
      · rcases hscheme with h | h <;> cases h
    · simp only [target, splitScheme_of_not_mem hcolon] at hscheme
      rcases hscheme with h | h <;> cases h
  · rintro ⟨scheme, first, rest, rfl, hweb, hfirst⟩
    simp only [target, splitScheme_append hweb.ne_colon, hweb.isScheme, if_true]
    exact ⟨hweb, authorityOf_ne_nil hfirst rest⟩

/-! ## Plain URLs -/

theorem mem_of_mem_clean (h : c ∈ clean text) : c ∈ text :=
  (List.dropWhile_sublist _).subset (List.mem_filter.mp h).1

theorem mem_of_mem_splitScheme (h : c ∈ (splitScheme text).2) : c ∈ text := by
  unfold splitScheme at h
  dsimp only at h
  split at h
  · next rest hdrop =>
      split at h
      · exact (List.dropWhile_sublist _).subset (hdrop ▸ List.mem_cons_of_mem _ h)
      · exact h
  · exact h

theorem mem_of_mem_authorityOf (h : c ∈ authorityOf text) : c ∈ text := by
  unfold authorityOf at h
  split at h
  · exact List.mem_cons_of_mem _ (List.mem_cons_of_mem _ ((List.takeWhile_sublist _).subset h))
  · cases h

theorem checkCompatibility_of_ascii (h : ∀ c ∈ authority, c.toNat < 128) :
    checkCompatibility authority = .ok () := by
  have hbeyond : ∀ n ∈ compatibilityDelimiters, 128 ≤ n := by decide
  refine if_neg fun hany => ?_
  obtain ⟨c, hc, hdelimiter⟩ := List.any_eq_true.mp hany
  have hlow := h c hc
  have hhigh := hbeyond _ (List.contains_iff_mem.mp hdelimiter)
  omega

/-- In plain characters there is nothing to object to. -/
theorem split_of_plain {url : String} (h : IsPlain url.toList) :
    split url = .ok (target (clean url.toList)) := by
  have hauthority : IsPlain (target (clean url.toList)).authority :=
    fun c hc => h c (mem_of_mem_clean (mem_of_mem_splitScheme (mem_of_mem_authorityOf hc)))
  have hbrackets : checkBrackets (target (clean url.toList)).authority = .ok () :=
    checkBrackets_of_not_contains
      (by simpa using fun hmem => (hauthority '[' hmem).2.1 rfl)
      (by simpa using fun hmem => (hauthority ']' hmem).2.2 rfl)
  have hcompatibility := checkCompatibility_of_ascii fun c hc => (hauthority c hc).1
  rw [target] at hbrackets hcompatibility
  unfold split
  simp only [hbrackets, hcompatibility]
  rfl

/-! ## What follows the authority -/

/-- Of a scheme, an authority and what follows, the last does not matter. -/
theorem isWeb_append_iff (hcolon : ∀ c ∈ scheme, c ≠ ':')
    (hauthority : ∀ c ∈ authority, c ∉ ['/', '?', '#'])
    (htail : ∀ c, tail.head? = some c → c ∈ ['/', '?', '#']) :
    IsWeb (scheme ++ ':' :: '/' :: '/' :: (authority ++ tail)) ↔
      IsWebScheme scheme ∧ authority ≠ [] := by
  rw [← isHttp_target_iff, isHttp_iff]
  simp only [target, splitScheme_append hcolon]
  split
  · rw [authorityOf_append hauthority htail]
    rfl
  · next hscheme =>
      constructor
      · rintro ⟨h | h, -⟩ <;> cases h
      · rintro ⟨hweb, -⟩
        exact absurd hweb.isScheme hscheme

/-- Two URLs that differ at most in what follows the authority: a path, a
query, a fragment. -/
def AgreeUpToAuthority (text text' : List Char) : Prop :=
  ∃ scheme authority tail tail', (∀ c ∈ scheme, c ≠ ':')
    ∧ (∀ c ∈ authority, c ∉ ['/', '?', '#'])
    ∧ (∀ c, tail.head? = some c → c ∈ ['/', '?', '#'])
    ∧ (∀ c, tail'.head? = some c → c ∈ ['/', '?', '#'])
    ∧ text = scheme ++ ':' :: '/' :: '/' :: (authority ++ tail)
    ∧ text' = scheme ++ ':' :: '/' :: '/' :: (authority ++ tail')

theorem isWeb_iff_of_agree {text' : List Char} (h : AgreeUpToAuthority text text') :
    IsWeb text ↔ IsWeb text' := by
  obtain ⟨scheme, authority, tail, tail', hcolon, hauthority, htail, htail', rfl, rfl⟩ := h
  rw [isWeb_append_iff hcolon hauthority htail, isWeb_append_iff hcolon hauthority htail']

end Url
end LoadReport
