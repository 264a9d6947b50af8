import LoadReport.Proofs.Except
import LoadReport.Settings.Environment

/-!
# What a load takes over

Settings are loaded as a whole or not at all: both sources have to be readable
and both sections have to fit, and what is loaded is what the two sections hold
(`load_eq_ok_iff`, `ofSections_eq_ok_iff`). So whatever a check makes sure of is
true of the loaded settings.

The check of percentiles makes sure that they can be reported
(`reportable_of_load`). A section may be absent, or come without percentiles, and
then the default ones stand in; these are not checked on the way and have to pass
for themselves.
-/

namespace LoadReport

theorem Except.mapError_eq_ok_iff {ε ε' α : Type} {x : Except ε α} {f : ε → ε'} {a : α} :
    x.mapError f = .ok a ↔ x = .ok a := by
  cases x with
  | error e => exact ⟨fun h => (by cases h), fun h => (by cases h)⟩
  | ok a' =>
      constructor
      · intro h
        exact congrArg Except.ok (Except.ok.inj h)
      · intro h
        exact congrArg Except.ok (Except.ok.inj h)

namespace Checked

variable {α : Type} {a : α}

theorem within_eq_ok_iff {name : String} {x : Checked α} : x.within name = .ok a ↔ x = .ok a := by
  cases x with
  | error os => exact ⟨fun h => (by cases h), fun h => (by cases h)⟩
  | ok a' => exact Iff.rfl

theorem field_eq_ok_iff {name : String} {check : Datum → Checked α} {default : α}
    {fields : Table String Datum} :
    field name check default fields = .ok a ↔
      Table.get? (· == ·) name fields = none ∧ default = a
        ∨ ∃ d, Table.get? (· == ·) name fields = some d ∧ check d = .ok a := by
  unfold field
  cases Table.get? (· == ·) name fields with
  | none => simp
  | some d => simp [within_eq_ok_iff]

end Checked

/-! ## Both sections or neither -/

theorem Settings.ofSections_eq_ok_iff {logging statistics : Option Datum} {settings : Settings} :
    Settings.ofSections logging statistics = .ok settings ↔
      checkSection LoggingSettings.ofFields {} logging = .ok settings.logging
        ∧ checkSection StatisticsSettings.ofFields {} statistics = .ok settings.statistics := by
  unfold Settings.ofSections
  rw [Except.map_eq_ok_iff]
  constructor
  · rintro ⟨⟨logging', statistics'⟩, h, rfl⟩
    obtain ⟨hlogging, hstatistics⟩ := Checked.both_eq_ok_iff.mp h
    exact ⟨Checked.within_eq_ok_iff.mp hlogging, Checked.within_eq_ok_iff.mp hstatistics⟩
  · rintro ⟨hlogging, hstatistics⟩
    refine ⟨(settings.logging, settings.statistics), ?_, rfl⟩
    exact Checked.both_eq_ok_iff.mpr
      ⟨Checked.within_eq_ok_iff.mpr hlogging, Checked.within_eq_ok_iff.mpr hstatistics⟩

theorem Settings.load_eq_ok_iff {environment : List (String × String)} {file : String}
    {settings : Settings} :
    Settings.load environment file = .ok settings ↔
      ∃ upper lower,
        Environment.readSource .environment
            (environment.map fun (name, value) => (name, some value)) = .ok upper
          ∧ Environment.readSource .file (VariableFile.read environment file) = .ok lower
          ∧ Settings.ofSections (Environment.layOver upper.1 lower.1)
            (Environment.layOver upper.2 lower.2) = .ok settings := by
  unfold Settings.load
  simp only [Except.bind_eq_ok_iff, Except.mapError_eq_ok_iff, exists_and_left]

/-! ## Percentiles -/

theorem isFraction_of_checkPercentiles {d : Datum} {ps : List Binary64}
    (h : checkPercentiles d = .ok ps) : ∀ p ∈ ps, isFraction p = true := by
  unfold checkPercentiles at h
  split at h
  · split at h
    · cases h
    · split at h
      · cases h
      · next hnone =>
          obtain rfl := Except.ok.inj h
          simpa using List.find?_eq_none.mp hnone
  · cases h

/-- All percentiles can be reported. -/
def Settings.Reportable (settings : Settings) : Prop :=
  ∀ p ∈ settings.statistics.percentiles, isFraction p = true

theorem reportable_default : ({} : Settings).Reportable := by
  unfold Settings.Reportable
  decide +kernel

theorem reportable_of_checkSection {settings : Settings} {statistics : Option Datum}
    (h : checkSection StatisticsSettings.ofFields {} statistics = .ok settings.statistics) :
    settings.Reportable := by
  unfold checkSection at h
  split at h
  · have hdefault := Except.ok.inj h
    unfold Settings.Reportable
    rw [← hdefault]
    exact reportable_default
  · next fields =>
      unfold StatisticsSettings.ofFields at h
      obtain ⟨ps, hps, hsettings⟩ := Except.map_eq_ok_iff.mp h
      unfold Settings.Reportable
      rw [← hsettings]
      rcases Checked.field_eq_ok_iff.mp hps with ⟨-, rfl⟩ | ⟨d, -, hd⟩
      · exact reportable_default
      · exact isFraction_of_checkPercentiles hd
  · cases h

/-- **What is loaded can be reported.** -/
theorem reportable_of_load {environment : List (String × String)} {file : String}
    {settings : Settings} (h : Settings.load environment file = .ok settings) :
    settings.Reportable := by
  obtain ⟨upper, lower, -, -, hsections⟩ := Settings.load_eq_ok_iff.mp h
  exact reportable_of_checkSection (Settings.ofSections_eq_ok_iff.mp hsections).2

end LoadReport
