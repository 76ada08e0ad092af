import LiveDex.Container.Interning
import LiveDex.Proofs.Assembly
import Mathlib.Algebra.Group.Nat.Defs
import Mathlib.Data.Nat.Init

/-!
Interning told without its state. A record is walked as a list of uses, each of which mentions a
text or the descriptor of a type, and the pools after a walk are a fold over the uses. The map of a
pool and a search through its values answer alike, so the index that is handed out for a value is
its position. Pools only grow at their ends, so it stays the position of what it was handed out for,
and every entry can be read off the final pools. The pools themselves are the first uses in order,
without repetitions.
-/
namespace LiveDex

namespace Container

/-- One mention of a string, as it is or as the descriptor of a type. -/
inductive Use where
  | text (string : String)
  | type (string : String)
  deriving DecidableEq, Repr

namespace Use

def string : Use → String
  | text s => s
  | type s => s

def descriptor? : Use → Option String
  | text _ => none
  | type s => some s

@[simp] theorem descriptor?_text (s : String) : (text s).descriptor? = none := rfl

@[simp] theorem descriptor?_type (s : String) : (type s).descriptor? = some s := rfl

end Use

end Container

open Container

def FieldRecord.uses (field : FieldRecord) : List Use :=
  [.text field.name, .type field.typeDescriptor]

def MethodRecord.uses (method : MethodRecord) : List Use :=
  [.text method.name, .text method.proto]

/-- Everything a class mentions, in the order in which it is interned. -/
def ClassRecord.uses (record : ClassRecord) : List Use :=
  record.classTypes.map .type ++ record.sourceFile.toList.map .text
    ++ record.fields.flatMap FieldRecord.uses ++ record.methods.flatMap MethodRecord.uses

def Bundle.uses (bundle : Bundle) : List Use :=
  bundle.classes.flatMap ClassRecord.uses

theorem ClassRecord.descriptors_uses (record : ClassRecord) :
    record.uses.filterMap Use.descriptor? = record.types := by
  have hfields : (record.fields.flatMap FieldRecord.uses).filterMap Use.descriptor? =
      record.fields.map FieldRecord.typeDescriptor := by
    induction record.fields with
    | nil => rfl
    | cons field fields ih => simpa [FieldRecord.uses, List.filterMap_cons] using ih
  have hmethods : (record.methods.flatMap MethodRecord.uses).filterMap Use.descriptor? = [] := by
    induction record.methods with
    | nil => rfl
    | cons method methods ih => simpa [MethodRecord.uses, List.filterMap_cons] using ih
  have hclass : (record.classTypes.map Use.type).filterMap Use.descriptor? =
      record.classTypes := by
    rw [List.filterMap_map]
    exact List.filterMap_some
  have hsource : (record.sourceFile.toList.map Use.text).filterMap Use.descriptor? = [] := by
    simp
  simp only [ClassRecord.uses, List.filterMap_append, hclass, hsource, hfields, hmethods,
    List.append_nil, ClassRecord.types]

theorem Bundle.descriptors_uses (bundle : Bundle) :
    bundle.uses.filterMap Use.descriptor? = bundle.classes.flatMap ClassRecord.types := by
  simp only [Bundle.uses, List.filterMap_flatMap, ClassRecord.descriptors_uses]

namespace Container

section Prefixes

variable {α : Type} {values values' : Array α} (h : values.toList <+: values'.toList) {a : α}
  (ha : a ∈ values)

include h ha

theorem prefix_mem : a ∈ values' :=
  Array.mem_toList_iff.mp (h.subset (Array.mem_toList_iff.mpr ha))

theorem prefix_idxOf_eq [DecidableEq α] : values'.idxOf a = values.idxOf a := by
  obtain ⟨xs⟩ := values
  obtain ⟨ys⟩ := values'
  obtain ⟨suffix, rfl⟩ := h
  simp only [List.mem_toArray] at ha
  simp [List.idxOf_append, ha]

end Prefixes

namespace IndexedPool

variable {α : Type} [DecidableEq α] {pool : IndexedPool α} {a : α}

/-- The pool after a use of a value. -/
def grow (pool : IndexedPool α) (a : α) : IndexedPool α :=
  (pool.intern a).2

theorem lookup_eq_some_of_mem (ha : a ∈ pool.values) :
    pool.indices.lookup a = some (pool.values.idxOf a).toUInt32 := by
  rw [pool.lookup_indices]
  obtain ⟨⟨items⟩, indices, hlookup⟩ := pool
  obtain ⟨index, hindex⟩ := Option.isSome_iff_exists.mp (List.isSome_idxOf?.mpr (by simpa using ha))
  simp only [List.idxOf?_toArray, List.idxOf_toArray, List.idxOf_eq_getD_idxOf?, hindex,
    Option.map_some, Option.getD_some]

theorem intern_of_mem (ha : a ∈ pool.values) :
    pool.intern a = ((pool.values.idxOf a).toUInt32, pool) := by
  unfold intern
  split
  · rename_i index hfound
    rw [lookup_eq_some_of_mem ha] at hfound
    rw [Option.some.inj hfound]
  · rename_i hmissing
    exact absurd ha (lookup_eq_none_iff.mp hmissing)

theorem intern_of_notMem (ha : a ∉ pool.values) :
    pool.intern a = (pool.values.size.toUInt32, pool.add a (lookup_eq_none_iff.mpr ha)) := by
  unfold intern
  split
  · rename_i index hfound
    rw [lookup_eq_none_iff.mpr ha] at hfound
    cases hfound
  · rfl

theorem values_grow (pool : IndexedPool α) (a : α) :
    (pool.grow a).values = if a ∈ pool.values then pool.values else pool.values.push a := by
  unfold grow
  by_cases ha : a ∈ pool.values
  · rw [intern_of_mem ha, if_pos ha]
  · rw [intern_of_notMem ha, if_neg ha]
    rfl

/-- A value gets its position in the pool that its use leaves behind. -/
theorem intern_eq (pool : IndexedPool α) (a : α) :
    pool.intern a = (((pool.grow a).values.idxOf a).toUInt32, pool.grow a) := by
  rw [values_grow]
  unfold grow
  by_cases ha : a ∈ pool.values
  · rw [if_pos ha, intern_of_mem ha]
  · have hlast : (pool.values.push a).idxOf a = pool.values.size := by
      obtain ⟨⟨items⟩, indices, hlookup⟩ := pool
      simp only [List.mem_toArray] at ha
      simp [List.idxOf_append, ha]
    rw [if_neg ha, intern_of_notMem ha, hlast]

theorem prefix_grow (pool : IndexedPool α) (a : α) :
    pool.values.toList <+: (pool.grow a).values.toList := by
  rw [values_grow]
  split
  · exact List.prefix_rfl
  · simp

theorem mem_grow_self (pool : IndexedPool α) (a : α) : a ∈ (pool.grow a).values := by
  rw [values_grow]
  split
  · assumption
  · simp

end IndexedPool

namespace Interner

def stringIndex (pools : Interner) (text : String) : UInt32 :=
  (pools.strings.values.idxOf text).toUInt32

def typeIndex (pools : Interner) (descriptor : String) : UInt32 :=
  (pools.types.values.idxOf (pools.stringIndex descriptor)).toUInt32

/-- The index that stands for a use. -/
def index (pools : Interner) : Use → UInt32
  | .text s => pools.stringIndex s
  | .type s => pools.typeIndex s

def growStrings (pools : Interner) (text : String) : Interner :=
  { pools with strings := pools.strings.grow text }

/-- The pools after a use. -/
def meet (pools : Interner) : Use → Interner
  | .text s => pools.growStrings s
  | .type s =>
    let pools' := pools.growStrings s
    { pools' with types := pools'.types.grow (pools'.stringIndex s) }

/-- The pools after a walk over uses. -/
def meetAll (pools : Interner) (uses : List Use) : Interner :=
  uses.foldl meet pools

theorem string_eq (text : String) (pools : Interner) :
    string text pools = ((pools.growStrings text).stringIndex text, pools.growStrings text) := by
  simp only [string, IndexedPool.intern_eq]
  rfl

theorem typeAt_eq (descriptor : UInt32) (pools : Interner) :
    typeAt descriptor pools = (((pools.types.grow descriptor).values.idxOf descriptor).toUInt32,
      { pools with types := pools.types.grow descriptor }) := by
  simp only [typeAt, IndexedPool.intern_eq]

theorem type_eq (descriptor : String) (pools : Interner) :
    type descriptor pools =
      ((pools.meet (.type descriptor)).typeIndex descriptor, pools.meet (.type descriptor)) := by
  change (let x := string descriptor pools; typeAt x.1 x.2) = _
  simp only [string_eq, typeAt_eq]
  rfl

/-- Later pools hold what earlier ones hold, at the same positions. -/
structure Extends (pools pools' : Interner) : Prop where
  strings : pools.strings.values.toList <+: pools'.strings.values.toList
  types : pools.types.values.toList <+: pools'.types.values.toList

theorem Extends.refl (pools : Interner) : Extends pools pools :=
  ⟨List.prefix_rfl, List.prefix_rfl⟩

theorem Extends.trans {p q r : Interner} (hpq : Extends p q) (hqr : Extends q r) :
    Extends p r :=
  ⟨hpq.strings.trans hqr.strings, hpq.types.trans hqr.types⟩

theorem extends_meet (pools : Interner) (use : Use) : Extends pools (pools.meet use) := by
  cases use with
  | text s => exact ⟨IndexedPool.prefix_grow _ _, List.prefix_rfl⟩
  | type s => exact ⟨IndexedPool.prefix_grow _ _, IndexedPool.prefix_grow _ _⟩

theorem extends_meetAll (pools : Interner) (uses : List Use) :
    Extends pools (pools.meetAll uses) := by
  induction uses generalizing pools with
  | nil => exact Extends.refl pools
  | cons use uses ih => exact (extends_meet pools use).trans (ih (pools.meet use))

/-- The pools hold what a use needs. -/
def Holds (pools : Interner) : Use → Prop
  | .text s => s ∈ pools.strings.values
  | .type s => s ∈ pools.strings.values ∧ pools.stringIndex s ∈ pools.types.values

theorem holds_meet (pools : Interner) (use : Use) : (pools.meet use).Holds use := by
  cases use with
  | text s => exact IndexedPool.mem_grow_self _ _
  | type s => exact ⟨IndexedPool.mem_grow_self _ _, IndexedPool.mem_grow_self _ _⟩

theorem Extends.stringIndex_eq {pools pools' : Interner} (h : Extends pools pools') {text : String}
    (htext : text ∈ pools.strings.values) : pools'.stringIndex text = pools.stringIndex text := by
  unfold stringIndex
  rw [prefix_idxOf_eq h.strings htext]

/-- What is held stays held, under the same index. -/
theorem Extends.holds {pools pools' : Interner} (h : Extends pools pools') {use : Use}
    (huse : pools.Holds use) : pools'.Holds use ∧ pools'.index use = pools.index use := by
  cases use with
  | text s => exact ⟨prefix_mem h.strings huse, h.stringIndex_eq huse⟩
  | type s =>
    obtain ⟨hs, ht⟩ := huse
    have hidx := h.stringIndex_eq hs
    refine ⟨⟨prefix_mem h.strings hs, ?_⟩, ?_⟩
    · rw [hidx]
      exact prefix_mem h.types ht
    · simp only [index, typeIndex, hidx, prefix_idxOf_eq h.types ht]

theorem holds_meetAll (pools : Interner) (uses : List Use) (use : Use) (huse : use ∈ uses) :
    (pools.meetAll uses).Holds use := by
  induction uses generalizing pools with
  | nil => simp at huse
  | cons first uses ih =>
    rcases List.mem_cons.mp huse with rfl | hrest
    · exact ((extends_meetAll (pools.meet use) uses).holds (holds_meet pools use)).1
    · exact ih (pools.meet first) hrest

/-- The action walks over the uses and returns what the entry says, read off the pools it leaves
behind or any later ones. -/
def Interns {α : Type} (action : StateM Interner α) (uses : List Use) (entry : Interner → α) :
    Prop :=
  ∀ pools final : Interner, Extends (pools.meetAll uses) final →
    action pools = (entry final, pools.meetAll uses)

namespace Interns

variable {α β : Type} {action : StateM Interner α} {uses : List Use} {entry : Interner → α}

theorem pure (a : α) : Interns (Pure.pure a) [] (fun _ => a) := by
  intro pools final _
  rfl

theorem string (text : String) :
    Interns (Interner.string text) [.text text] (fun final => final.stringIndex text) := by
  intro pools final hfinal
  have hindex := hfinal.stringIndex_eq (IndexedPool.mem_grow_self pools.strings text)
  rw [string_eq]
  exact congrArg (·, pools.growStrings text) hindex.symm

theorem type (descriptor : String) :
    Interns (Interner.type descriptor) [.type descriptor]
      (fun final => final.typeIndex descriptor) := by
  intro pools final hfinal
  have hindex := (hfinal.holds (holds_meet pools (.type descriptor))).2
  rw [type_eq]
  exact congrArg (·, pools.meet (.type descriptor)) hindex.symm

theorem bind {next : α → StateM Interner β} {uses' : List Use} {entry' : α → Interner → β}
    (haction : Interns action uses entry) (hnext : ∀ a, Interns (next a) uses' (entry' a)) :
    Interns (action >>= next) (uses ++ uses') (fun final => entry' (entry final) final) := by
  intro pools final hfinal
  have hsplit : pools.meetAll (uses ++ uses') = (pools.meetAll uses).meetAll uses' :=
    List.foldl_append
  rw [hsplit] at hfinal ⊢
  have hfirst := haction pools final ((extends_meetAll (pools.meetAll uses) uses').trans hfinal)
  change (let x := action pools; next x.1 x.2) = _
  rw [hfirst]
  exact hnext (entry final) (pools.meetAll uses) final hfinal

theorem mapM {f : α → StateM Interner β} {uses : α → List Use} {entry : α → Interner → β}
    (hf : ∀ a, Interns (f a) (uses a) (entry a)) (items : List α) :
    Interns (items.mapM f) (items.flatMap uses) (fun final => items.map (entry · final)) := by
  induction items with
  | nil => exact pure []
  | cons a items ih =>
    rw [List.mapM_cons]
    have h := (hf a).bind (fun b => ih.bind (fun bs => pure (b :: bs)))
    simpa only [List.append_nil, List.flatMap_cons, List.map_cons] using h

end Interns

/-- An absent part is stood for by no index at all. -/
def optionalIndex (index : String → UInt32) : Option String → UInt32
  | some text => index text
  | none => noIndex

def fieldEntry (pools : Interner) (field : FieldRecord) : FieldEntry :=
  ⟨pools.stringIndex field.name, pools.typeIndex field.typeDescriptor, field.accessFlags⟩

def methodEntry (pools : Interner) (method : MethodRecord) : MethodEntry :=
  ⟨pools.stringIndex method.name, pools.stringIndex method.proto, method.accessFlags,
    method.code⟩

/-- The entry of a record whose uses are all in the pools. -/
def entry (pools : Interner) (record : ClassRecord) : ClassEntry where
  type := pools.typeIndex record.descriptor
  accessFlags := record.accessFlags
  superclass := optionalIndex pools.typeIndex record.superclass
  interfaces := record.interfaces.map pools.typeIndex
  sourceFile := optionalIndex pools.stringIndex record.sourceFile
  fields := record.fields.map pools.fieldEntry
  methods := record.methods.map pools.methodEntry

theorem optional_interns {intern : String → StateM Interner UInt32} {use : String → Use}
    {index : Interner → String → UInt32}
    (hintern : ∀ s, Interns (intern s) [use s] (fun final => index final s)) (o : Option String) :
    Interns (optional intern o) (o.toList.map use)
      (fun final => optionalIndex (index final) o) := by
  cases o with
  | none => exact Interns.pure noIndex
  | some s => exact hintern s

theorem field_interns (record : FieldRecord) :
    Interns (field record) record.uses (fun final => final.fieldEntry record) :=
  (Interns.string record.name).bind (fun name => (Interns.type record.typeDescriptor).bind
    (fun type => Interns.pure (FieldEntry.mk name type record.accessFlags)))

theorem method_interns (record : MethodRecord) :
    Interns (method record) record.uses (fun final => final.methodEntry record) :=
  (Interns.string record.name).bind (fun name => (Interns.string record.proto).bind
    (fun proto => Interns.pure (MethodEntry.mk name proto record.accessFlags record.code)))

/-- Interning a class gives its entry in the final pools. -/
theorem classEntry_interns (record : ClassRecord) :
    Interns (classEntry record) record.uses (fun final => final.entry record) := by
  have h := (Interns.type record.descriptor).bind (fun type =>
    (optional_interns Interns.type record.superclass).bind (fun superclass =>
      (Interns.mapM Interns.type record.interfaces).bind (fun interfaces =>
        (optional_interns Interns.string record.sourceFile).bind (fun sourceFile =>
          (Interns.mapM field_interns record.fields).bind (fun fields =>
            (Interns.mapM method_interns record.methods).bind (fun methods =>
              Interns.pure (ClassEntry.mk type record.accessFlags superclass interfaces sourceFile
                fields methods)))))))
  have huses : record.uses = [Use.type record.descriptor]
      ++ (record.superclass.toList.map Use.type
        ++ (record.interfaces.flatMap (fun s => [Use.type s])
          ++ (record.sourceFile.toList.map Use.text
            ++ (record.fields.flatMap FieldRecord.uses
              ++ (record.methods.flatMap MethodRecord.uses ++ []))))) := by
    simp [ClassRecord.uses, ClassRecord.classTypes, List.map_eq_flatMap]
  rw [huses]
  exact h

/-- The pools after all uses of a bundle. -/
def ofBundle (bundle : Bundle) : Interner :=
  ({} : Interner).meetAll bundle.uses

theorem holds_ofBundle (bundle : Bundle) (record : ClassRecord) (hrecord : record ∈ bundle.classes)
    (use : Use) (huse : use ∈ record.uses) : (ofBundle bundle).Holds use :=
  holds_meetAll _ _ _ (List.mem_flatMap_of_mem hrecord huse)

end Interner

/-- The tables of a bundle are its pools, with the entries that the pools give. -/
theorem Tables.ofBundle_eq (bundle : Bundle) :
    Tables.ofBundle bundle =
      ⟨bundle.dialect, (Interner.ofBundle bundle).strings.values,
        (Interner.ofBundle bundle).types.values,
        bundle.classes.map (Interner.ofBundle bundle).entry⟩ := by
  have h := Interner.Interns.mapM Interner.classEntry_interns bundle.classes {}
    (Interner.ofBundle bundle) (Interner.Extends.refl _)
  unfold Tables.ofBundle
  rw [StateT.run, h]
  rfl

theorem Tables.strings_ofBundle (bundle : Bundle) :
    (Tables.ofBundle bundle).strings = (Interner.ofBundle bundle).strings.values := by
  rw [Tables.ofBundle_eq]

theorem Tables.types_ofBundle (bundle : Bundle) :
    (Tables.ofBundle bundle).types = (Interner.ofBundle bundle).types.values := by
  rw [Tables.ofBundle_eq]

section FirstUses

variable {α : Type} [DecidableEq α]

theorem nodup_eraseDups (items : List α) : items.eraseDups.Nodup := by
  induction hn : items.length using Nat.strong_induction_on generalizing items with
  | h n ih =>
    cases items with
    | nil => simp
    | cons a items =>
      rw [List.eraseDups_cons, List.nodup_cons]
      have hle := List.length_filter_le (fun b => !b == a) items
      refine ⟨by simp, ih _ ?_ _ rfl⟩
      simp only [List.length_cons] at hn
      omega

/-- Growing a pool of first uses, each held under a name of its own, by one more value. -/
theorem IndexedPool.toList_grow {β : Type} [DecidableEq β] (name : α → β) {pool : IndexedPool β}
    {seen : List α} (h : pool.values.toList = seen.eraseDups.map name) (a : α)
    (hname : ∀ b ∈ seen, name a = name b → a = b) :
    (pool.grow (name a)).values.toList = (seen ++ [a]).eraseDups.map name := by
  have hmem : name a ∈ pool.values ↔ a ∈ seen := by
    simp only [← Array.mem_toList_iff, h, List.mem_map, List.mem_eraseDups]
    constructor
    · rintro ⟨b, hb, heq⟩
      rwa [hname b hb heq.symm]
    · intro ha
      exact ⟨a, ha, rfl⟩
  rw [values_grow, List.eraseDups_append, List.map_append, ← h]
  by_cases ha : a ∈ seen
  · simp [hmem, ha, List.removeAll]
  · simp [hmem, ha, List.removeAll, List.eraseDups_cons]

end FirstUses

section Positions

variable {α : Type} [DecidableEq α] {values : Array α} {a : α} (ha : a ∈ values)
  (hsize : values.size ≤ 2 ^ 32)

include ha hsize

theorem toNat_idxOf : (values.idxOf a).toUInt32.toNat = values.idxOf a := by
  have hlt : values.idxOf a < values.size := Array.idxOf_lt_size_iff.mpr ha
  rw [Nat.toUInt32_eq, UInt32.toNat_ofNat_of_lt' (by simp only [UInt32.size]; omega)]

theorem getElem?_idxOf : values[(values.idxOf a).toUInt32.toNat]? = some a := by
  rw [toNat_idxOf ha hsize]
  obtain ⟨xs⟩ := values
  rw [List.mem_toArray] at ha
  rw [List.idxOf_toArray, List.getElem?_toArray,
    List.getElem?_eq_getElem (List.idxOf_lt_length_of_mem ha), List.getElem_idxOf]

end Positions

namespace Interner

/-- The pools list the first uses among those seen so far. Types are known by the positions of
their descriptors, which words can tell apart as long as there are not too many. -/
structure ListsFirstUses (pools : Interner) (seen : List Use) : Prop where
  strings : pools.strings.values.toList = (seen.map Use.string).eraseDups
  types : pools.strings.values.size ≤ 2 ^ 32 →
    pools.types.values.toList = (seen.filterMap Use.descriptor?).eraseDups.map pools.stringIndex

theorem getElem?_stringIndex {pools : Interner} (hsize : pools.strings.values.size ≤ 2 ^ 32)
    {text : String} (htext : text ∈ pools.strings.values) :
    pools.strings.values[(pools.stringIndex text).toNat]? = some text :=
  getElem?_idxOf htext hsize

theorem stringIndex_inj {pools : Interner} (hsize : pools.strings.values.size ≤ 2 ^ 32)
    {s t : String} (hs : s ∈ pools.strings.values) (ht : t ∈ pools.strings.values)
    (h : pools.stringIndex s = pools.stringIndex t) : s = t := by
  have hget := getElem?_stringIndex hsize hs
  rw [h, getElem?_stringIndex hsize ht] at hget
  exact (Option.some.inj hget).symm

theorem ListsFirstUses.mem_strings {pools : Interner} {seen : List Use}
    (h : pools.ListsFirstUses seen) {use : Use} (huse : use ∈ seen) :
    use.string ∈ pools.strings.values := by
  rw [← Array.mem_toList_iff, h.strings, List.mem_eraseDups]
  exact List.mem_map_of_mem huse

theorem ListsFirstUses.descriptor_mem_strings {pools : Interner} {seen : List Use}
    (h : pools.ListsFirstUses seen) {descriptor : String}
    (hdescriptor : descriptor ∈ seen.filterMap Use.descriptor?) :
    descriptor ∈ pools.strings.values := by
  obtain ⟨use, huse, hsome⟩ := List.mem_filterMap.mp hdescriptor
  cases use with
  | text s => cases hsome
  | type s =>
    obtain rfl := Option.some.inj hsome
    exact h.mem_strings huse

theorem ListsFirstUses.growStrings {pools : Interner} {seen : List Use}
    (h : pools.ListsFirstUses seen) (text : String) :
    (pools.growStrings text).strings.values.toList = (seen.map Use.string ++ [text]).eraseDups ∧
      ((pools.growStrings text).strings.values.size ≤ 2 ^ 32 → pools.types.values.toList =
        (seen.filterMap Use.descriptor?).eraseDups.map (pools.growStrings text).stringIndex) := by
  have hextends : Extends pools (pools.growStrings text) :=
    ⟨IndexedPool.prefix_grow _ _, List.prefix_rfl⟩
  refine ⟨?_, ?_⟩
  · have hlist : pools.strings.values.toList = (seen.map Use.string).eraseDups.map id := by
      rw [List.map_id, h.strings]
    have hgrow := IndexedPool.toList_grow id hlist text (fun _ _ heq => heq)
    rwa [List.map_id] at hgrow
  intro hsize
  have hle := hextends.strings.length_le
  simp only [Array.length_toList] at hle
  rw [h.types (by omega)]
  apply List.map_congr_left
  intro descriptor hdescriptor
  rw [List.mem_eraseDups] at hdescriptor
  exact (hextends.stringIndex_eq (h.descriptor_mem_strings hdescriptor)).symm

/-- One more use keeps the pools lists of first uses. -/
theorem ListsFirstUses.meet {pools : Interner} {seen : List Use} (h : pools.ListsFirstUses seen)
    (use : Use) : (pools.meet use).ListsFirstUses (seen ++ [use]) := by
  obtain ⟨hstrings, htypes⟩ := h.growStrings use.string
  have hmap : (seen ++ [use]).map Use.string = seen.map Use.string ++ [use.string] := by simp
  cases use with
  | text s =>
    have hfilter : (seen ++ [Use.text s]).filterMap Use.descriptor? =
        seen.filterMap Use.descriptor? := by
      simp
    refine ⟨?_, ?_⟩
    · rw [hmap]
      exact hstrings
    · rw [hfilter]
      exact htypes
  | type s =>
    have hfilter : (seen ++ [Use.type s]).filterMap Use.descriptor? =
        seen.filterMap Use.descriptor? ++ [s] := by
      simp
    refine ⟨?_, ?_⟩
    · rw [hmap]
      exact hstrings
    · intro hsize
      rw [hfilter]
      apply IndexedPool.toList_grow (pools.growStrings s).stringIndex (htypes hsize)
      intro descriptor hdescriptor heq
      have hmem := prefix_mem (IndexedPool.prefix_grow pools.strings s)
        (h.descriptor_mem_strings hdescriptor)
      exact stringIndex_inj hsize (IndexedPool.mem_grow_self _ _) hmem heq

theorem listsFirstUses_meetAll (uses : List Use) :
    (({} : Interner).meetAll uses).ListsFirstUses uses := by
  suffices h : ∀ (pools : Interner) (seen : List Use), pools.ListsFirstUses seen →
      (pools.meetAll uses).ListsFirstUses (seen ++ uses) from
    h {} [] ⟨rfl, fun _ => rfl⟩
  induction uses with
  | nil =>
    intro pools seen h
    rwa [List.append_nil]
  | cons use uses ih =>
    intro pools seen h
    have hnext := ih (pools.meet use) (seen ++ [use]) (h.meet use)
    rwa [List.append_assoc] at hnext

/-- The pools of a bundle list what its classes mention, in order and each once. -/
theorem listsFirstUses_ofBundle (bundle : Bundle) :
    (ofBundle bundle).ListsFirstUses bundle.uses :=
  listsFirstUses_meetAll bundle.uses

end Interner

end Container

end LiveDex
