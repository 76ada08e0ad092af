import LiveDex.Proofs.PoolSlots

/-!
References between constants. A constant refers from a place among its indices to another constant,
and the place says which kind of constant is needed there. The check of a pool goes through the
references by the index of the constant that holds them and then by place, and ends at the first one
that does not lead to what is needed. In a class file nothing is found, so names and descriptors are
reached from every constant that has them.
-/
namespace LiveDex.ClassFile

theorem Kind.label_injective : Function.Injective Kind.label := by
  intro kind kind'
  cases kind <;> cases kind' <;> simp [Kind.label]

/-- The constant refers from the place to the index, where a constant of the given kind is needed,
or any constant. -/
inductive Constant.Refers {τ : Type} : Constant τ → ℕ → UInt16 → Option Kind → Prop
  | className (name : UInt16) : Refers (.classRef name) 0 name (some .utf8)
  | moduleName (name : UInt16) : Refers (.moduleRef name) 0 name (some .utf8)
  | packageName (name : UInt16) : Refers (.packageRef name) 0 name (some .utf8)
  | stringText (text : UInt16) : Refers (.stringRef text) 0 text (some .utf8)
  | methodTypeDescriptor (descriptor : UInt16) :
      Refers (.methodType descriptor) 0 descriptor (some .utf8)
  | memberName (name descriptor : UInt16) :
      Refers (.nameAndType name descriptor) 0 name (some .utf8)
  | memberDescriptor (name descriptor : UInt16) :
      Refers (.nameAndType name descriptor) 1 descriptor (some .utf8)
  | fieldOwner (owner signature : UInt16) :
      Refers (.fieldRef owner signature) 0 owner (some .classRef)
  | fieldSignature (owner signature : UInt16) :
      Refers (.fieldRef owner signature) 1 signature (some .nameAndType)
  | methodOwner (owner signature : UInt16) :
      Refers (.methodRef owner signature) 0 owner (some .classRef)
  | methodSignature (owner signature : UInt16) :
      Refers (.methodRef owner signature) 1 signature (some .nameAndType)
  | interfaceMethodOwner (owner signature : UInt16) :
      Refers (.interfaceMethodRef owner signature) 0 owner (some .classRef)
  | interfaceMethodSignature (owner signature : UInt16) :
      Refers (.interfaceMethodRef owner signature) 1 signature (some .nameAndType)
  | dynamicSignature (bootstrap signature : UInt16) :
      Refers (.dynamic bootstrap signature) 0 signature (some .nameAndType)
  | invokeDynamicSignature (bootstrap signature : UInt16) :
      Refers (.invokeDynamic bootstrap signature) 0 signature (some .nameAndType)
  | handleTarget (form : UInt8) (reference : UInt16) :
      Refers (.methodHandle form reference) 0 reference none

theorem Constant.refers_iff {τ : Type} (c : Constant τ) (place : ℕ) (target : UInt16)
    (need : Option Kind) :
    c.Refers place target need ↔ c.references[place]? = some (target, need) := by
  constructor
  · intro h
    cases h <;> rfl
  · intro h
    cases c <;> rcases place with _ | _ | place <;> simp [references] at h <;>
      (obtain ⟨rfl, rfl⟩ := h; constructor)

namespace Pool

/-- A usable constant stands at the index, and it is of the kind that is needed, if one is. -/
def Meets (pool : Pool) (target : UInt16) (need : Option Kind) : Prop :=
  ∃ c, pool.get target = .ok c ∧ ∀ kind, need = some kind → c.kind = kind

/-- Every reference of every usable constant leads to what is needed there. -/
def Closed (pool : Pool) : Prop :=
  ∀ index c place target need, pool.get index = .ok c → c.Refers place target need →
    pool.Meets target need

/-- The constant at the index refers from the place to something else than what is needed there. -/
structure Offends (pool : Pool) (index : UInt16) (place : ℕ) (target : UInt16)
    (need : Option Kind) : Prop where
  refers : ∃ c, pool.get index = .ok c ∧ c.Refers place target need
  unmet : ¬ pool.Meets target need

/-- The first reference that offends, by the index of the constant that holds it and by its place
there. -/
structure OffendsFirst (pool : Pool) (index : UInt16) (place : ℕ) (target : UInt16)
    (need : Option Kind) : Prop extends Offends pool index place target need where
  first : ∀ index' place' target' need', pool.Offends index' place' target' need' →
    index < index' ∨ index = index' ∧ place ≤ place'

/-- What the error of a reference that offends is. -/
inductive Fault (pool : Pool) (target : UInt16) : Option Kind → Error → Prop
  | unusable {need : Option Kind} (missing : ∀ c, pool.get target ≠ .ok c) :
      Fault pool target need (.invalidIndex target)
  | otherKind {kind : Kind} {c : Constant String} (found : pool.get target = .ok c)
      (other : c.kind.label ≠ kind.label) :
      Fault pool target (some kind) (.unexpectedKind target kind)

variable (pool : Pool)

theorem fault?_eq_none_iff (target : UInt16) (need : Option Kind) :
    pool.fault? (target, need) = none ↔ pool.Meets target need := by
  unfold fault? Meets
  cases pool.get target with
  | error e => simp
  | ok c => cases need <;> simp

theorem eq_of_get_eq_error {index : UInt16} {e : Error} (h : pool.get index = .error e) :
    e = .invalidIndex index := by
  unfold Pool.get at h
  cases hslot : pool.get? index with
  | none =>
    rw [hslot] at h
    exact (Except.error.inj h).symm
  | some c =>
    rw [hslot] at h
    cases h

theorem fault_of_fault?_eq_some {target : UInt16} {need : Option Kind} {e : Error}
    (h : pool.fault? (target, need) = some e) : pool.Fault target need e := by
  unfold fault? at h
  cases hget : pool.get target with
  | error e' =>
    simp only [hget, Option.some.injEq] at h
    obtain rfl := h
    obtain rfl := pool.eq_of_get_eq_error hget
    exact .unusable fun c hc => by simp [hget] at hc
  | ok c =>
    cases need with
    | none => simp [hget] at h
    | some kind =>
      by_cases hkind : c.kind = kind
      · simp [hget, hkind] at h
      · simp only [hget, hkind, if_false, Option.some.injEq] at h
        obtain rfl := h
        exact .otherKind hget fun hlabel => hkind (Kind.label_injective hlabel)

private theorem findSome?_flatMap {α β γ : Type} (f : β → Option γ) (g : α → List β) (l : List α) :
    (l.flatMap g).findSome? f = l.findSome? fun a => (g a).findSome? f := by
  induction l with
  | nil => rfl
  | cons a l ih =>
    rw [List.flatMap_cons, List.findSome?_append, List.findSome?_cons, ih]
    cases (g a).findSome? f <;> rfl

/-- The check stops at the first constant that holds a reference at fault, and at the first such
reference of that constant. -/
theorem exists_split_of_checkReferences {e : Error} (h : pool.checkReferences = .error e) :
    ∃ before index c after front target need back,
      pool.entries = before ++ (index, c) :: after ∧
      c.references = front ++ (target, need) :: back ∧ pool.fault? (target, need) = some e ∧
      (∀ entry ∈ before, ∀ reference ∈ entry.2.references, pool.fault? reference = none) ∧
      ∀ reference ∈ front, pool.fault? reference = none := by
  have hfound : pool.references.findSome? pool.fault? = some e := by
    unfold checkReferences at h
    cases hsome : pool.references.findSome? pool.fault? with
    | none =>
      rw [hsome] at h
      cases h
    | some e' =>
      rw [hsome] at h
      rw [Except.error.inj h]
  rw [references, findSome?_flatMap] at hfound
  obtain ⟨before, ⟨index, c⟩, after, hentries, hc, hbefore⟩ := List.findSome?_eq_some_iff.mp hfound
  obtain ⟨front, ⟨target, need⟩, back, hreferences, hfault, hfront⟩ :=
    List.findSome?_eq_some_iff.mp hc
  refine ⟨before, index, c, after, front, target, need, back, hentries, hreferences, hfault, ?_,
    hfront⟩
  intro entry hentry
  exact List.findSome?_eq_none_iff.mp (hbefore entry hentry)

section Read

variable {pool : Pool} (hsize : pool.size ≤ UInt16.size)
include hsize

/-- The error of the check belongs to the first reference that offends. -/
theorem exists_offendsFirst_of_checkReferences {e : Error} (h : pool.checkReferences = .error e) :
    ∃ index place target need, pool.OffendsFirst index place target need ∧
      pool.Fault target need e := by
  obtain ⟨before, index, c, after, front, target, need, back, hentries, hreferences, hfault,
    hbefore, hfront⟩ := pool.exists_split_of_checkReferences h
  have hget : pool.get index = .ok c := by
    rw [← mem_entries_iff hsize, hentries]
    simp
  have hplace : c.Refers front.length target need := by
    rw [Constant.refers_iff, hreferences]
    simp
  refine ⟨index, front.length, target, need, ⟨⟨⟨c, hget, hplace⟩, ?_⟩, ?_⟩,
    pool.fault_of_fault?_eq_some hfault⟩
  · rw [← fault?_eq_none_iff, hfault]
    simp
  · intro index' place' target' need' hoffends
    obtain ⟨⟨c', hget', hrefers'⟩, hunmet⟩ := hoffends
    have hmem : (index', c') ∈ pool.entries := (mem_entries_iff hsize _ _).mpr hget'
    have hreference := (Constant.refers_iff _ _ _ _).mp hrefers'
    have hsorted := pairwise_entries hsize
    rw [hentries] at hmem hsorted
    rcases List.mem_append.mp hmem with hearly | hlate
    · have hnone := hbefore _ hearly _ (List.mem_of_getElem? hreference)
      exact absurd ((pool.fault?_eq_none_iff _ _).mp hnone) hunmet
    · rcases List.mem_cons.mp hlate with hsame | hafter
      · obtain ⟨rfl, rfl⟩ := Prod.mk.inj hsame
        refine Or.inr ⟨rfl, ?_⟩
        by_contra hless
        rw [hreferences, List.getElem?_append_left (by omega)] at hreference
        have hnone := hfront _ (List.mem_of_getElem? hreference)
        exact hunmet ((pool.fault?_eq_none_iff _ _).mp hnone)
      · have hbehind := (List.pairwise_append.mp hsorted).2.1
        exact Or.inl ((List.pairwise_cons.mp hbehind).1 _ hafter)

theorem checkReferences_eq_ok_iff_closed : pool.checkReferences = .ok () ↔ pool.Closed := by
  constructor
  · intro hok index c place target need hget hrefers
    rw [← fault?_eq_none_iff]
    apply pool.checkReferences_eq_ok_iff_faultless.mp hok
    have hreference := (Constant.refers_iff _ _ _ _).mp hrefers
    exact List.mem_flatMap.mpr
      ⟨(index, c), (mem_entries_iff hsize _ _).mpr hget, List.mem_of_getElem? hreference⟩
  · intro hclosed
    cases hcheck : pool.checkReferences with
    | ok _ => rfl
    | error e =>
      obtain ⟨index, place, target, need, hfirst, -⟩ :=
        exists_offendsFirst_of_checkReferences hsize hcheck
      obtain ⟨c, hget, hrefers⟩ := hfirst.refers
      exact absurd (hclosed index c place target need hget hrefers) hfirst.unmet

end Read

theorem size_le_of_read {cursor behind : Cursor} {pool : Pool}
    (h : Pool.read cursor = .ok (pool, behind)) : pool.size ≤ UInt16.size := by
  obtain ⟨count, -, hfilled⟩ := filled_of_read h
  rw [hfilled.size_eq]
  exact Nat.max_le.mpr ⟨by decide, Nat.le_of_lt count.toNat_lt⟩

section Closure

variable {pool : Pool} (h : pool.Closed)
include h

theorem Closed.exists_text {index target : UInt16} {c : Constant String} {place : ℕ}
    (hget : pool.get index = .ok c) (hrefers : c.Refers place target (some .utf8)) :
    ∃ text, pool.get target = .ok (.utf8 text) := by
  obtain ⟨found, hfound, hkind⟩ := h _ _ _ _ _ hget hrefers
  have hutf8 := hkind .utf8 rfl
  cases found with
  | utf8 text => exact ⟨text, hfound⟩
  | _ => cases hutf8

theorem Closed.exists_class {index target : UInt16} {c : Constant String} {place : ℕ}
    (hget : pool.get index = .ok c) (hrefers : c.Refers place target (some .classRef)) :
    ∃ name text, pool.get target = .ok (.classRef name) ∧ pool.get name = .ok (.utf8 text) := by
  obtain ⟨found, hfound, hkind⟩ := h _ _ _ _ _ hget hrefers
  have hclass := hkind .classRef rfl
  cases found with
  | classRef name =>
    obtain ⟨text, htext⟩ := h.exists_text hfound (.className name)
    exact ⟨name, text, hfound, htext⟩
  | _ => cases hclass

theorem Closed.exists_signature {index target : UInt16} {c : Constant String} {place : ℕ}
    (hget : pool.get index = .ok c) (hrefers : c.Refers place target (some .nameAndType)) :
    ∃ name descriptor nameText descriptorText,
      pool.get target = .ok (.nameAndType name descriptor) ∧
      pool.get name = .ok (.utf8 nameText) ∧ pool.get descriptor = .ok (.utf8 descriptorText) := by
  obtain ⟨found, hfound, hkind⟩ := h _ _ _ _ _ hget hrefers
  have hsignature := hkind .nameAndType rfl
  cases found with
  | nameAndType name descriptor =>
    obtain ⟨nameText, hname⟩ := h.exists_text hfound (.memberName name descriptor)
    obtain ⟨descriptorText, hdescriptor⟩ := h.exists_text hfound (.memberDescriptor name descriptor)
    exact ⟨name, descriptor, nameText, descriptorText, hfound, hname, hdescriptor⟩
  | _ => cases hsignature

theorem Closed.exists_className_iff (index : UInt16) :
    (∃ text, pool.className index = .ok text) ↔ ∃ name, pool.get index = .ok (.classRef name) := by
  simp only [className_eq_ok_iff, HasClass, HasText, get_eq_ok_iff]
  constructor
  · rintro ⟨text, name, hclass, -⟩
    exact ⟨name, hclass⟩
  · rintro ⟨name, hclass⟩
    obtain ⟨text, htext⟩ :=
      h.exists_text ((pool.get_eq_ok_iff _ _).mpr hclass) (.className name)
    exact ⟨text, name, hclass, (pool.get_eq_ok_iff _ _).mp htext⟩

end Closure

/-- The owner and the signature of a field, a method or an interface method. -/
def RefersToMember (pool : Pool) (index owner signature : UInt16) : Prop :=
  pool.get index = .ok (.fieldRef owner signature) ∨
    pool.get index = .ok (.methodRef owner signature) ∨
    pool.get index = .ok (.interfaceMethodRef owner signature)

end Pool

theorem closed_of_parse {bytes : Bytes} {file : ClassFile} (h : parse bytes = .ok file) :
    file.pool.Closed := by
  obtain ⟨⟨behind, hread⟩, -⟩ := read_pool_of_parse h
  obtain ⟨indexed, -, hdenotes, -⟩ := parse_eq_ok_iff.mp h
  have hchecked := file.pool.checkReferences_eq_ok_iff.mpr hdenotes.references
  exact (Pool.checkReferences_eq_ok_iff_closed (Pool.size_le_of_read hread)).mp hchecked

/-- The check of a pool succeeds exactly if every reference leads to what is needed there, and
otherwise reports the first one that does not, by index. So in a class file the names of classes are
found exactly at the classes, and every member leads to the name of its class and to its own name
and descriptor. -/
theorem references_closed_or_first_reported :
    (∀ cursor behind pool, Pool.read cursor = .ok (pool, behind) →
      (pool.checkReferences = .ok () ↔ pool.Closed) ∧
      ∀ e, pool.checkReferences = .error e → ∃ index place target need,
        pool.OffendsFirst index place target need ∧ pool.Fault target need e) ∧
    ∀ bytes file, parse bytes = .ok file →
      (∀ index, (∃ text, file.pool.className index = .ok text) ↔
        ∃ name, file.pool.get index = .ok (.classRef name)) ∧
      ∀ index owner signature, file.pool.RefersToMember index owner signature →
        (∃ name text, file.pool.get owner = .ok (.classRef name) ∧
          file.pool.get name = .ok (.utf8 text)) ∧
        ∃ name descriptor nameText descriptorText,
          file.pool.get signature = .ok (.nameAndType name descriptor) ∧
          file.pool.get name = .ok (.utf8 nameText) ∧
          file.pool.get descriptor = .ok (.utf8 descriptorText) := by
  refine ⟨?_, ?_⟩
  · intro cursor behind pool hread
    have hsize := Pool.size_le_of_read hread
    exact ⟨Pool.checkReferences_eq_ok_iff_closed hsize,
      fun e => Pool.exists_offendsFirst_of_checkReferences hsize⟩
  · intro bytes file h
    have hclosed := closed_of_parse h
    refine ⟨hclosed.exists_className_iff, ?_⟩
    intro index owner signature hmember
    rcases hmember with hget | hget | hget
    · exact ⟨hclosed.exists_class hget (.fieldOwner owner signature),
        hclosed.exists_signature hget (.fieldSignature owner signature)⟩
    · exact ⟨hclosed.exists_class hget (.methodOwner owner signature),
        hclosed.exists_signature hget (.methodSignature owner signature)⟩
    · exact ⟨hclosed.exists_class hget (.interfaceMethodOwner owner signature),
        hclosed.exists_signature hget (.interfaceMethodSignature owner signature)⟩

/-- A long in the slots 1 and 2, and a class that takes slot 2 for its name. -/
def phantomPool : Pool :=
  ⟨#[none, some (.long 1), none, some (.classRef 2)]⟩

def phantomBytes : Bytes :=
  [0, 4, 5, 0, 0, 0, 0, 0, 0, 0, 1, 7, 0, 2]

/-- A class with a reference to a method of its own. -/
def callingFile : Bytes :=
  [202, 254, 186, 190, 0, 0, 0, 52, 0, 6, 1, 0, 1, 67, 7, 0, 1, 1, 0, 3, 40, 41, 86, 12, 0, 1, 0, 3,
    10, 0, 2, 0, 4, 0, 33, 0, 2, 0, 0, 0, 0, 0, 0, 0, 0, 0, 0]

theorem references_first_reported_phantomPool :
    (∃ behind, Pool.read ⟨0, phantomBytes⟩ = .ok (phantomPool, behind)) ∧
    phantomPool.checkReferences = .error (.invalidIndex 2) ∧
    (∃ index place target need, phantomPool.OffendsFirst index place target need ∧
      phantomPool.Fault target need (.invalidIndex 2)) ∧
    ∃ file, parse callingFile = .ok file ∧ file.pool.RefersToMember 5 2 4 ∧
      ∃ name text, file.pool.get 2 = .ok (.classRef name) ∧
        file.pool.get name = .ok (.utf8 text) := by
  obtain ⟨hpools, hfiles⟩ := references_closed_or_first_reported
  have hcheck : phantomPool.checkReferences = .error (.invalidIndex 2) := by decide
  have hcalling : (parse callingFile).toOption.map (fun file => file.pool.get? 5) =
      some (some (.methodRef 2 4)) := by decide +kernel
  have hpool : (Pool.read ⟨0, phantomBytes⟩).toOption.map Prod.fst = some phantomPool := by
    decide +kernel
  obtain ⟨behind, hread⟩ : ∃ behind, Pool.read ⟨0, phantomBytes⟩ = .ok (phantomPool, behind) := by
    cases hfound : Pool.read ⟨0, phantomBytes⟩ with
    | error e => simp [hfound, Except.toOption] at hpool
    | ok x => exact ⟨x.2, by simpa [hfound, Except.toOption, Prod.ext_iff] using hpool⟩
  refine ⟨⟨behind, hread⟩, hcheck, ?_, ?_⟩
  · exact (hpools _ _ _ hread).2 _ hcheck
  · cases hparse : parse callingFile with
    | error e => simp [hparse, Except.toOption] at hcalling
    | ok file =>
      have hmember : file.pool.RefersToMember 5 2 4 := by
        refine Or.inr (Or.inl ((file.pool.get_eq_ok_iff _ _).mpr ?_))
        simpa [hparse, Except.toOption] using hcalling
      exact ⟨file, rfl, hmember, ((hfiles callingFile file hparse).2 5 2 4 hmember).1⟩

end LiveDex.ClassFile
