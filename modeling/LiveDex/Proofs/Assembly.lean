import LiveDex.Bundle
import Mathlib.Data.List.Induction
import Mathlib.Data.List.Nodup

/-!
Bundles as they are assembled: records are added one after the other, and a record whose
descriptor is taken leaves the bundle as it is. No descriptor occurs twice in such a bundle, which
holds the first definition of each descriptor in the order of the sequence.
-/
namespace LiveDex

namespace ClassRecord

/-- The types a class is made of: itself, its superclass and its interfaces. -/
def classTypes (record : ClassRecord) : List String :=
  record.descriptor :: (record.superclass.toList ++ record.interfaces)

/-- All types that a class mentions. -/
def types (record : ClassRecord) : List String :=
  record.classTypes ++ record.fields.map FieldRecord.typeDescriptor

end ClassRecord

namespace Bundle

theorem defines_iff (bundle : Bundle) (descriptor : String) :
    bundle.defines descriptor = true ↔
      descriptor ∈ bundle.classes.map ClassRecord.descriptor := by
  simp [defines]

theorem add_eq_ok_iff (bundle next : Bundle) (record : ClassRecord) :
    bundle.add record = .ok next ↔ ¬ bundle.defines record.descriptor ∧
      next = { bundle with classes := bundle.classes ++ [record] } := by
  unfold add
  by_cases hdefines : bundle.defines record.descriptor
  · simp [hdefines]
  · rw [if_neg hdefines, Except.ok.injEq, eq_comm, and_iff_right hdefines]

/-- Bundles in which no class is defined twice. -/
def Distinct (bundle : Bundle) : Prop :=
  (bundle.classes.map ClassRecord.descriptor).Nodup

theorem distinct_snoc_iff (bundle : Bundle) (record : ClassRecord) :
    Distinct { bundle with classes := bundle.classes ++ [record] } ↔
      ¬ bundle.defines record.descriptor ∧ bundle.Distinct := by
  unfold Distinct
  rw [List.map_append, List.map_singleton, ← List.concat_eq_append, List.nodup_concat,
    defines_iff]

/-- The bundle after an attempt to add a record. -/
def addOrKeep (bundle : Bundle) (record : ClassRecord) : Bundle :=
  match bundle.add record with
  | .ok next => next
  | .error _ => bundle

/-- The bundle that a sequence of additions leaves behind, whichever of them fail. -/
def assembled (dialect : Dialect) (records : List ClassRecord) : Bundle :=
  records.foldl addOrKeep { dialect }

theorem distinct_addOrKeep (bundle : Bundle) (record : ClassRecord) (h : bundle.Distinct) :
    (bundle.addOrKeep record).Distinct := by
  unfold addOrKeep
  split
  · rename_i next hnext
    obtain ⟨hnew, rfl⟩ := (add_eq_ok_iff _ _ _).mp hnext
    exact (distinct_snoc_iff bundle record).mpr ⟨hnew, h⟩
  · exact h

theorem dialect_addOrKeep (bundle : Bundle) (record : ClassRecord) :
    (bundle.addOrKeep record).dialect = bundle.dialect := by
  unfold addOrKeep
  split
  · rename_i next hnext
    obtain ⟨-, rfl⟩ := (add_eq_ok_iff _ _ _).mp hnext
    rfl
  · rfl

theorem assembled_invariant (dialect : Dialect) (records : List ClassRecord) :
    (assembled dialect records).Distinct ∧ (assembled dialect records).dialect = dialect := by
  suffices h : ∀ start : Bundle, start.Distinct → start.dialect = dialect →
      (records.foldl addOrKeep start).Distinct ∧
        (records.foldl addOrKeep start).dialect = dialect from
    h { dialect } List.nodup_nil rfl
  induction records with
  | nil =>
    intro start hdistinct hdialect
    exact ⟨hdistinct, hdialect⟩
  | cons record records ih =>
    intro start hdistinct hdialect
    exact ih _ (distinct_addOrKeep start record hdistinct)
      ((dialect_addOrKeep start record).trans hdialect)

theorem mem_of_mem_addOrKeep {bundle : Bundle} {record other : ClassRecord}
    (h : other ∈ (bundle.addOrKeep record).classes) : other ∈ bundle.classes ∨ other = record := by
  unfold addOrKeep at h
  split at h
  · rename_i next hnext
    obtain ⟨-, rfl⟩ := (add_eq_ok_iff _ _ _).mp hnext
    simpa using h
  · exact Or.inl h

/-- Nothing gets into a bundle that was not added. -/
theorem mem_of_mem_assembled {dialect : Dialect} {records : List ClassRecord}
    {record : ClassRecord} (h : record ∈ (assembled dialect records).classes) :
    record ∈ records := by
  suffices hstart : ∀ start : Bundle, record ∈ (records.foldl addOrKeep start).classes →
      record ∈ start.classes ∨ record ∈ records by
    rcases hstart { dialect } h with hnone | hrecords
    · simp at hnone
    · exact hrecords
  clear h
  induction records with
  | nil =>
    intro start hmem
    exact Or.inl hmem
  | cons first records ih =>
    intro start hmem
    rcases ih (start.addOrKeep first) hmem with hfirst | hrest
    · rcases mem_of_mem_addOrKeep hfirst with hold | hnew
      · exact Or.inl hold
      · exact Or.inr (List.mem_cons.mpr (Or.inl hnew))
    · exact Or.inr (List.mem_cons_of_mem first hrest)

theorem assembled_snoc (dialect : Dialect) (records : List ClassRecord) (record : ClassRecord) :
    assembled dialect (records ++ [record]) = (assembled dialect records).addOrKeep record := by
  simp only [assembled, List.foldl_append, List.foldl_cons, List.foldl_nil]

/-- One attempt: the record goes behind the others, unless its descriptor is taken. -/
theorem classes_addOrKeep (bundle : Bundle) (record : ClassRecord) :
    (bundle.addOrKeep record).classes =
      bundle.classes ++ if bundle.defines record.descriptor then [] else [record] := by
  unfold addOrKeep add
  by_cases htaken : bundle.defines record.descriptor
  · simp [htaken]
  · simp [htaken]

/-- A record that was left out had its descriptor taken, so a bundle defines the descriptors of all
the records that came, whichever of them were added. -/
theorem defines_assembled_iff (dialect : Dialect) (records : List ClassRecord)
    (descriptor : String) :
    (assembled dialect records).defines descriptor = true ↔
      descriptor ∈ records.map ClassRecord.descriptor := by
  induction records using List.reverseRecOn with
  | nil => simp [assembled, defines]
  | append_singleton records record ih =>
    rw [assembled_snoc, defines_iff, classes_addOrKeep, List.map_append, List.mem_append,
      ← defines_iff, ih, List.map_append, List.mem_append]
    by_cases htaken : (assembled dialect records).defines record.descriptor
    · have hearlier (h : descriptor = record.descriptor) :
          descriptor ∈ records.map ClassRecord.descriptor := ih.mp (h ▸ htaken)
      simpa [htaken] using hearlier
    · simp [htaken]

/-- The records whose descriptor no earlier record of the sequence has, in their order. -/
def firstDefinitions (records : List ClassRecord) : List ClassRecord :=
  records.zipIdx.filterMap fun (record, place) =>
    if record.descriptor ∈ (records.take place).map ClassRecord.descriptor then none
    else some record

theorem firstDefinitions_snoc (records : List ClassRecord) (record : ClassRecord) :
    firstDefinitions (records ++ [record]) = firstDefinitions records ++
      if record.descriptor ∈ records.map ClassRecord.descriptor then [] else [record] := by
  have hfront : ∀ entry ∈ records.zipIdx,
      (records ++ [record]).take entry.2 = records.take entry.2 := by
    intro entry hentry
    have hplace : entry.2 < records.length := List.snd_lt_of_mem_zipIdx hentry
    exact List.take_append_of_le_length (by omega)
  unfold firstDefinitions
  rw [List.zipIdx_append, List.filterMap_append]
  congr 1
  · apply List.filterMap_congr
    intro entry hentry
    simp only [hfront entry hentry]
  · by_cases htaken : record.descriptor ∈ records.map ClassRecord.descriptor
    · simp [htaken]
    · simp [htaken]

/-- What a bundle holds is decided by the sequence alone. -/
theorem classes_assembled (dialect : Dialect) (records : List ClassRecord) :
    (assembled dialect records).classes = firstDefinitions records := by
  induction records using List.reverseRecOn with
  | nil => rfl
  | append_singleton records record ih =>
    rw [assembled_snoc, classes_addOrKeep, firstDefinitions_snoc, ih]
    simp only [defines_assembled_iff]

/-- Along a sequence of additions to a new bundle, an addition fails exactly when an earlier record
of the sequence has the same descriptor, whether that one was added or not. It then leaves the
bundle as it is. In the end the bundle holds the first definition of each descriptor, in the order
of the sequence, under the dialect it began with. -/
theorem assembled_keeps_first_definitions (dialect : Dialect) (records : List ClassRecord) :
    (∀ front record back, records = front ++ record :: back →
      ((∃ error, (assembled dialect front).add record = .error error) ↔
        ∃ earlier ∈ front, earlier.descriptor = record.descriptor) ∧
      (∀ error, (assembled dialect front).add record = .error error →
        error = .duplicateClass record.descriptor ∧
          assembled dialect (front ++ [record]) = assembled dialect front) ∧
      (∀ next, (assembled dialect front).add record = .ok next →
        assembled dialect (front ++ [record]) = next ∧
          next.classes = (assembled dialect front).classes ++ [record]) ∧
      (assembled dialect front).dialect = dialect) ∧
    (assembled dialect records).classes = firstDefinitions records ∧
    (assembled dialect records).classes.Pairwise (fun first second =>
      first.descriptor ≠ second.descriptor) ∧
    (assembled dialect records).dialect = dialect := by
  obtain ⟨hdistinct, hdialect⟩ := assembled_invariant dialect records
  refine ⟨?_, classes_assembled dialect records, List.pairwise_map.mp hdistinct, hdialect⟩
  rintro front record back rfl
  obtain ⟨-, hfront⟩ := assembled_invariant dialect front
  have htaken := defines_assembled_iff dialect front record.descriptor
  rw [List.mem_map] at htaken
  rw [assembled_snoc, ← htaken]
  unfold addOrKeep add
  by_cases hdefines : (assembled dialect front).defines record.descriptor
  · simp [hdefines, hfront]
  · simp [hdefines, hfront]

/-- The third record comes under a name that was refused to the second one already. -/
def repeatedNames : List ClassRecord :=
  [{ descriptor := "LA;" }, { descriptor := "LA;", accessFlags := 1 },
    { descriptor := "LA;", accessFlags := 2 }, { descriptor := "LB;" }]

theorem assembled_keeps_repeatedNames :
    repeatedNames = repeatedNames.take 2 ++ { descriptor := "LA;", accessFlags := 2 } ::
      [{ descriptor := "LB;" }] ∧
    (∃ error, (assembled .v038 (repeatedNames.take 2)).add
      { descriptor := "LA;", accessFlags := 2 } = .error error) ∧
    (assembled .v038 repeatedNames).classes = [{ descriptor := "LA;" }, { descriptor := "LB;" }] ∧
    (assembled .v038 repeatedNames).dialect = .v038 := by
  obtain ⟨hadditions, hclasses, -, hdialect⟩ :=
    assembled_keeps_first_definitions .v038 repeatedNames
  obtain ⟨hfails, -⟩ := hadditions (repeatedNames.take 2) _ _ rfl
  refine ⟨rfl, hfails.mpr ⟨{ descriptor := "LA;", accessFlags := 1 }, ?_, rfl⟩, ?_, hdialect⟩
  · decide
  · rw [hclasses]
    decide

end Bundle

end LiveDex
