import LiveDex.Proofs.LoweringChecks

/-!
Lowering under other options. A higher API level never brings an older dialect, so raising the level
or giving up the check of names takes demands away and adds none. What a class file is lowered to
does not hang on the options at all. A class file that has a record therefore keeps it, and the
errors that are found before the dialect is looked at are the same under the stricter options.
-/
namespace LiveDex

/-- A failure that none of the later checks reports is one of the earlier checks. -/
theorem FirstFailure.of_append {ε : Type} {front back : List (Check ε)} {e : ε}
    (h : FirstFailure (front ++ back) e) (hback : ∀ check ∈ back, check.error ≠ e) :
    FirstFailure front e := by
  induction front with
  | nil =>
    obtain ⟨before, check, after, heq, -, -, herror⟩ := h
    have hmem : check ∈ back := by
      rw [List.nil_append] at heq
      simp [heq]
    exact absurd herror (hback check hmem)
  | cons check front ih =>
    rw [List.cons_append, firstFailure_cons_iff] at h
    rw [firstFailure_cons_iff]
    rcases h with hfailed | ⟨hmet, hrest⟩
    · exact Or.inl hfailed
    · exact Or.inr ⟨hmet, ih hrest⟩

/-- Whether the dialect of a level is older than another is told by the minimum of the other. -/
theorem Dialect.older_ofApiLevel_iff (level : UInt32) {dialect : Dialect}
    (h : dialect ≠ .baseline) : (ofApiLevel level).Older dialect ↔ level < dialect.minApiLevel := by
  have hlevel : (ofApiLevel level).minApiLevel =
      if 28 ≤ level then 28 else if 26 ≤ level then 26 else if 24 ≤ level then 24 else 1 := by
    unfold ofApiLevel all
    by_cases h28 : 28 ≤ level
    · simp [minApiLevel, h28]
    · by_cases h26 : 26 ≤ level
      · simp [minApiLevel, h28, h26]
      · by_cases h24 : 24 ≤ level
        · simp [minApiLevel, h28, h26, h24]
        · by_cases h1 : 1 ≤ level <;> simp [minApiLevel, h28, h26, h24, h1, baseline]
  unfold Older
  rw [hlevel]
  cases dialect with
  | v035 => exact absurd rfl h
  | v037 | v038 | v039 =>
    simp only [minApiLevel]
    grind

namespace Lowering

/-- The second options demand no more than the first. -/
structure Options.Relaxes (strict relaxed : Options) : Prop where
  apiLevel : strict.apiLevel ≤ relaxed.apiLevel
  strictNames : relaxed.strictNames → strict.strictNames

/-- The errors that are found before the dialect is looked at. -/
def Error.PrecedesDialect : Error → Prop
  | .malformed _ | .unsupportedVersion .. | .nameMismatch .. => True
  | .unsupportedFeature .. | .invalidDescriptor .. | .missingCode _ | .rejected _ => False

section Split

variable (options : Options) (name : String) (file : ClassFile)

/-- The checks of the version and of the name, which come before all others. -/
def leadingChecks : List (Check Error) :=
  (classChecks options name file).take 2

def laterChecks : List (Check Error) :=
  (classChecks options name file).drop 2 ++
    (file.fields.flatMap (fieldChecks file) ++
      file.methods.flatMap (methodChecks file options.dialect))

theorem checks_eq_append : checks options name file =
    leadingChecks options name file ++ laterChecks options name file :=
  rfl

variable {options name file}

theorem not_precedesDialect_of_mem {check : Check Error}
    (h : check ∈ laterChecks options name file) : ¬ check.error.PrecedesDialect := by
  simp only [laterChecks, classChecks, fieldChecks, methodChecks, List.drop_succ_cons,
    List.drop_zero, List.mem_append, List.mem_flatMap, List.mem_cons, List.not_mem_nil,
    or_false] at h
  rcases h with rfl | ⟨member, -, rfl⟩ | ⟨member, -, rfl | rfl | rfl⟩
  all_goals exact id

end Split

section Relaxed

variable {strict relaxed : Options} (hrelaxes : strict.Relaxes relaxed) {name : String}
  {file : ClassFile}

include hrelaxes

theorem Options.Relaxes.older {dialect : Dialect} (h : dialect ≠ .baseline)
    (holder : relaxed.dialect.Older dialect) : strict.dialect.Older dialect := by
  have hlevel := (Dialect.older_ofApiLevel_iff relaxed.apiLevel h).mp holder
  exact (Dialect.older_ofApiLevel_iff strict.apiLevel h).mpr
    (UInt32.lt_of_le_of_lt hrelaxes.apiLevel hlevel)

theorem Admissible.relax (h : Admissible strict name file) : Admissible relaxed name file where
  version := h.version
  names hnames := h.names (hrelaxes.strictNames hnames)
  pool holder := h.pool (hrelaxes.older (by decide) holder)
  fields := h.fields
  descriptors := h.descriptors
  bodies hinterface holder := h.bodies hinterface (hrelaxes.older (by decide) holder)
  code := h.code

theorem firstFailure_leadingChecks {e : Error}
    (h : FirstFailure (leadingChecks relaxed name file) e) :
    FirstFailure (leadingChecks strict name file) e := by
  simp only [leadingChecks, classChecks, List.take_succ_cons, List.take_zero,
    firstFailure_cons_iff] at h ⊢
  rcases h with hversion | ⟨hversion, hnames⟩
  · exact Or.inl hversion
  · refine Or.inr ⟨hversion, ?_⟩
    rcases hnames with ⟨hnames, herror⟩ | ⟨-, hnone⟩
    · refine Or.inl ⟨fun hmet => hnames fun hchecked => ?_, herror⟩
      exact hmet (hrelaxes.strictNames hchecked)
    · exact absurd hnone (by simp [FirstFailure])

theorem firstFailure_checks {e : Error} (he : e.PrecedesDialect)
    (h : FirstFailure (checks relaxed name file) e) : FirstFailure (checks strict name file) e := by
  rw [checks_eq_append] at h ⊢
  have hleading := h.of_append fun check hmem herror =>
    not_precedesDialect_of_mem hmem (herror ▸ he)
  exact (firstFailure_leadingChecks hrelaxes hleading).append _

end Relaxed

theorem lowerMethod_unique (classDescriptor : String) (isInterface : Bool) :
    Relator.RightUnique fun member method =>
      ∃ dialect, lowerMethod classDescriptor isInterface dialect member = .ok method := by
  rintro member method other ⟨dialect, hmethod⟩ ⟨dialect', hother⟩
  obtain ⟨registers, hregisters, rfl⟩ := eq_of_lowerMethod hmethod
  obtain ⟨registers', hregisters', rfl⟩ := eq_of_lowerMethod hother
  obtain rfl := Option.some.inj (hregisters.symm.trans hregisters')
  rfl

/-- Dialects that take a class file at all agree on its record. -/
theorem lowerClass_unique {dialect dialect' : Dialect} {file : ClassFile}
    {record record' : ClassRecord} (h : lowerClass dialect file = .ok record)
    (h' : lowerClass dialect' file = .ok record') : record = record' := by
  obtain ⟨fields, methods, hfields, hmethods, rfl⟩ := lowerClass_eq_ok_iff.mp h
  obtain ⟨fields', methods', hfields', hmethods', rfl⟩ := lowerClass_eq_ok_iff.mp h'
  have hsameFields : fields = fields' := by
    apply Relator.RightUnique.forall₂ _ hfields hfields'
    intro member field other hfield hother
    exact Except.ok.inj (hfield.symm.trans hother)
  have hsameMethods : methods = methods' :=
    (lowerMethod_unique _ _).forall₂ (hmethods.imp fun _ _ hmethod => ⟨dialect, hmethod⟩)
      (hmethods'.imp fun _ _ hmethod => ⟨dialect', hmethod⟩)
  rw [hsameFields, hsameMethods]

end Lowering

/-- A record is kept under relaxed options, and an error of theirs that is found before the dialect
is looked at is the error under the stricter options too. -/
theorem lower_survives_relaxation (strict relaxed : Lowering.Options)
    (hrelaxes : strict.Relaxes relaxed) (source : ClassSource) :
    (∀ record, lower strict source = .ok record → lower relaxed source = .ok record) ∧
    ∀ e : Lowering.Error, e.PrecedesDialect → lower relaxed source = .error e →
      lower strict source = .error e := by
  cases hparse : ClassFile.parse source.bytes with
  | error cause =>
    have hlower (options : Lowering.Options) :
        lower options source = .error (.malformed cause) := by
      unfold lower
      rw [hparse]
    simp [hlower]
  | ok file =>
    have hstrict := Lowering.lower_decided strict file hparse
    have hrelaxed := Lowering.lower_decided relaxed file hparse
    refine ⟨?_, ?_⟩
    · intro record hrecord
      have hadmissible : Lowering.Admissible strict source.name file :=
        (Lowering.admissible_iff ..).mpr (hstrict.exists_ok_iff.mp ⟨record, hrecord⟩)
      obtain ⟨record', hrecord'⟩ := hrelaxed.exists_ok_iff.mpr
        ((Lowering.admissible_iff ..).mp (hadmissible.relax hrelaxes))
      obtain ⟨found, hfound, -, hclass⟩ := Lowering.lower_eq_ok_iff.mp hrecord
      obtain ⟨found', hfound', -, hclass'⟩ := Lowering.lower_eq_ok_iff.mp hrecord'
      obtain rfl := Except.ok.inj (hfound.symm.trans hfound')
      rw [hrecord', Lowering.lowerClass_unique hclass hclass']
    · intro e he hfailure
      rw [hrelaxed.error_iff] at hfailure
      rw [hstrict.error_iff]
      exact Lowering.firstFailure_checks hrelaxes he hfailure

/-- A body in an interface is taken from one level on, whether or not the name is checked, and a
wrong name is found before a level that would refuse the body. -/
theorem lower_survives_relaxation_defaultMethod :
    (∃ record, lower { apiLevel := 24 } ⟨"I", defaultMethodFile⟩ = .ok record ∧
      lower { apiLevel := 30, strictNames := false } ⟨"I", defaultMethodFile⟩ = .ok record) ∧
    lower { apiLevel := 24 } ⟨"a.I", defaultMethodFile⟩ = .error (.nameMismatch "a/I" "I") ∧
    lower { apiLevel := 0 } ⟨"a.I", defaultMethodFile⟩ = .error (.nameMismatch "a/I" "I") := by
  have htaken : lower { apiLevel := 24 } ⟨"I", defaultMethodFile⟩ =
      .ok { descriptor := "LI;", accessFlags := 0x601,
            methods := [⟨"m", "()V", 1, some ⟨2, 1, 1, 0, [177]⟩⟩] } := by decide +kernel
  have hother : lower { apiLevel := 24 } ⟨"a.I", defaultMethodFile⟩ =
      .error (.nameMismatch "a/I" "I") := by decide +kernel
  obtain ⟨hkept, -⟩ := lower_survives_relaxation { apiLevel := 24 }
    { apiLevel := 30, strictNames := false } ⟨by decide, by simp⟩ ⟨"I", defaultMethodFile⟩
  obtain ⟨-, hfound⟩ := lower_survives_relaxation { apiLevel := 0 } { apiLevel := 24 }
    ⟨by decide, id⟩ ⟨"a.I", defaultMethodFile⟩
  exact ⟨⟨_, htaken, hkept _ htaken⟩, hother, hfound _ trivial hother⟩

end LiveDex
