import LiveDex.Proofs.ClassFileFormat
import Mathlib.Logic.Relation

/-!
The slots of a constant pool. The loop that fills a pool is followed from head to head: at each of
them there are as many slots as the index about to be read says, and the index stays within the slot
count, so that its arithmetic is that of the natural numbers. Hence every constant lands in the slot
of its own index, and the entries of a pool are listed under the indices they are found at.
-/
namespace LiveDex.ClassFile

open Reader

namespace Pool

section Slots

variable {slots : Array (Option (Constant String))} {c : Constant String}

/-- The slot holds a long or a double. -/
def HoldsWide (slots : Array (Option (Constant String))) (position : ℕ) : Prop :=
  ∃ c, slots[position]? = some (some c) ∧ (c.kind = .long ∨ c.kind = .double)

/-- Besides slot 0, the slots behind a long or a double are unusable and no others are. -/
structure Spaced (slots : Array (Option (Constant String))) : Prop where
  first : slots[0]? = some none
  unusable_iff : ∀ position, 1 ≤ position → position < slots.size →
    (slots[position]? = some none ↔ 2 ≤ position ∧ HoldsWide slots (position - 1))

theorem isWide_iff : c.isWide = true ↔ c.kind = .long ∨ c.kind = .double := by
  simp [Constant.isWide]

theorem holdsWide_last_iff :
    HoldsWide (slots.push (some c)) ((slots.push (some c)).size - 1) ↔ c.isWide = true := by
  simp [HoldsWide, isWide_iff]

theorem not_holdsWide_last_none :
    ¬ HoldsWide (slots.push none) ((slots.push none).size - 1) := by
  simp [HoldsWide]

theorem holdsWide_push_iff {slot : Option (Constant String)} {position : ℕ}
    (hposition : position < slots.size) :
    HoldsWide (slots.push slot) position ↔ HoldsWide slots position := by
  unfold HoldsWide
  rw [Array.getElem?_push_lt hposition]
  simp [hposition]

theorem spaced_start : Spaced #[none] := by
  refine ⟨rfl, ?_⟩
  intro position hone hsize
  simp only [List.size_toArray, List.length_singleton] at hsize
  omega

theorem Spaced.size_pos (h : Spaced slots) : 0 < slots.size := by
  by_contra hsize
  have hfirst := h.first
  rw [Array.getElem?_eq_none (by omega)] at hfirst
  cases hfirst

/-- One more slot, which is unusable exactly behind a long or a double. -/
theorem Spaced.push (h : Spaced slots) {slot : Option (Constant String)}
    (hslot : slot = none ↔ HoldsWide slots (slots.size - 1)) : Spaced (slots.push slot) := by
  have hpos := h.size_pos
  refine ⟨?_, ?_⟩
  · rw [Array.getElem?_push_lt hpos, ← h.first]
    simp [hpos]
  · intro position hone hsize
    rw [Array.size_push] at hsize
    rw [holdsWide_push_iff (by omega)]
    by_cases hnew : position = slots.size
    · subst hnew
      have htwo : HoldsWide slots (slots.size - 1) → 2 ≤ slots.size := by
        intro hwide
        by_contra hone
        obtain ⟨c, hfound, -⟩ := hwide
        rw [show slots.size - 1 = 0 by omega, h.first] at hfound
        cases hfound
      rw [Array.getElem?_push_size, Option.some.injEq, hslot]
      exact ⟨fun hwide => ⟨htwo hwide, hwide⟩, And.right⟩
    · rw [← h.unusable_iff position hone (by omega), Array.getElem?_push,
        if_neg hnew]

end Slots

/-- The head of the loop that fills a pool: the index about to be read, the slots filled so far and
the input left. -/
structure Head where
  index : UInt16
  slots : Array (Option (Constant String))
  cursor : Cursor

namespace Head

def start (cursor : Cursor) : Head :=
  ⟨1, #[none], cursor⟩

/-- A turn of the loop in a pool of `count` slots ends the reading or leads to the next head. All
its arithmetic is that of words of two bytes. -/
def turn (count : UInt16) (head : Head) : Except Error (Pool × Cursor) ⊕ Head :=
  if head.index < count then
    match Constant.read head.index head.cursor with
    | .error e => .inl (.error e)
    | .ok (c, behind) =>
      if c.isWide then
        if count - head.index < 2 then .inl (.error (.invalidIndex (head.index + 1)))
        else .inr ⟨head.index + 2, (head.slots.push (some c)).push none, behind⟩
      else .inr ⟨head.index + 1, head.slots.push (some c), behind⟩
  else .inl (.ok (⟨head.slots⟩, head.cursor))

/-- The loop comes to the later head. -/
def Reaches (count : UInt16) : Head → Head → Prop :=
  Relation.ReflTransGen fun head next => head.turn count = .inr next

section Arithmetic

variable {count index : UInt16} (hindex : index < count)
include hindex

theorem toNat_succ : (index + 1).toNat = index.toNat + 1 := by
  have hlt := UInt16.lt_iff_toNat_lt.mp hindex
  have hcount := count.toNat_lt
  rw [UInt16.toNat_add, show (1 : UInt16).toNat = 1 from rfl]
  omega

theorem toNat_left : (count - index).toNat = count.toNat - index.toNat :=
  UInt16.toNat_sub_of_le _ _ (UInt16.le_of_lt hindex)

theorem toNat_skip (hroom : ¬ count - index < 2) :
    (index + 2).toNat = index.toNat + 2 ∧ index.toNat + 2 ≤ count.toNat := by
  have hleft := toNat_left hindex
  have hlt := UInt16.lt_iff_toNat_lt.mp hindex
  have hcount := count.toNat_lt
  rw [UInt16.lt_iff_toNat_lt, hleft, show (2 : UInt16).toNat = 2 from rfl] at hroom
  rw [UInt16.toNat_add, show (2 : UInt16).toNat = 2 from rfl]
  omega

end Arithmetic

/-- The ways a turn can go: the loop ends with the pool, or with an error, or the constant read
takes one slot, or it takes two slots that are there. -/
theorem turn_cases (count : UInt16) (head : Head) :
    (¬ head.index < count ∧ head.turn count = .inl (.ok (⟨head.slots⟩, head.cursor))) ∨
    (∃ e, head.turn count = .inl (.error e)) ∨
    (head.index < count ∧ ∃ c behind, c.isWide = false ∧
      head.turn count = .inr ⟨head.index + 1, head.slots.push (some c), behind⟩) ∨
    (head.index < count ∧ ¬ count - head.index < 2 ∧ ∃ c behind, c.isWide = true ∧
      head.turn count =
        .inr ⟨head.index + 2, (head.slots.push (some c)).push none, behind⟩) := by
  unfold turn
  by_cases hindex : head.index < count
  · refine Or.inr ?_
    rw [if_pos hindex]
    cases Constant.read head.index head.cursor with
    | error e => exact Or.inl ⟨e, rfl⟩
    | ok x =>
      obtain ⟨c, behind⟩ := x
      by_cases hwide : c.isWide = true
      · by_cases hroom : count - head.index < 2
        · exact Or.inl ⟨.invalidIndex (head.index + 1), by simp [hwide, hroom]⟩
        · exact Or.inr (Or.inr ⟨hindex, hroom, c, behind, hwide, by simp [hwide, hroom]⟩)
      · exact Or.inr (Or.inl ⟨hindex, c, behind, Bool.eq_false_iff.mpr hwide, by simp [hwide]⟩)
  · exact Or.inl ⟨hindex, if_neg hindex⟩

/-- What a turn that goes on has done. -/
theorem of_turn_eq_inr {count : UInt16} {head next : Head} (hturn : head.turn count = .inr next) :
    head.index < count ∧ ∃ c behind,
      (c.isWide = false ∧ next = ⟨head.index + 1, head.slots.push (some c), behind⟩) ∨
      (c.isWide = true ∧ ¬ count - head.index < 2 ∧
        next = ⟨head.index + 2, (head.slots.push (some c)).push none, behind⟩) := by
  rcases turn_cases count head with ⟨-, hend⟩ | ⟨e, hend⟩ | ⟨hindex, c, behind, hnarrow, hnext⟩ |
    ⟨hindex, hroom, c, behind, hwide, hnext⟩
  · cases hturn.symm.trans hend
  · cases hturn.symm.trans hend
  · exact ⟨hindex, c, behind, Or.inl ⟨hnarrow, Sum.inr.inj (hturn.symm.trans hnext)⟩⟩
  · exact ⟨hindex, c, behind, Or.inr ⟨hwide, hroom, Sum.inr.inj (hturn.symm.trans hnext)⟩⟩

/-- What holds at every head of the loop. -/
structure Sound (count : UInt16) (head : Head) : Prop where
  size_eq : head.slots.size = head.index.toNat
  index_le : head.index.toNat ≤ max 1 count.toNat
  spaced : Spaced head.slots
  closed : ¬ HoldsWide head.slots (head.slots.size - 1)

theorem sound_start (count : UInt16) (cursor : Cursor) : Sound count (start cursor) := by
  refine ⟨rfl, ?_, spaced_start, ?_⟩
  · exact Nat.le_max_left 1 count.toNat
  · simp [HoldsWide, start]

theorem Sound.turn {count : UInt16} {head next : Head} (h : Sound count head)
    (hturn : head.turn count = .inr next) : Sound count next := by
  obtain ⟨hindex, c, behind, hnext⟩ := of_turn_eq_inr hturn
  have hspaced : Spaced (head.slots.push (some c)) := h.spaced.push (by simp [h.closed])
  have hlt := UInt16.lt_iff_toNat_lt.mp hindex
  rcases hnext with ⟨hnarrow, rfl⟩ | ⟨hwide, hroom, rfl⟩
  · refine ⟨?_, ?_, hspaced, ?_⟩
    · rw [Array.size_push, h.size_eq, toNat_succ hindex]
    · rw [toNat_succ hindex]
      omega
    · rw [holdsWide_last_iff, hnarrow]
      decide
  · have hbehind := hspaced.push (iff_of_true rfl (holdsWide_last_iff.mpr hwide))
    obtain ⟨hskip, hle⟩ := toNat_skip hindex hroom
    refine ⟨?_, ?_, hbehind, not_holdsWide_last_none⟩
    · rw [Array.size_push, Array.size_push, h.size_eq, hskip]
    · rw [hskip]
      omega

theorem Sound.reaches {count : UInt16} {head next : Head} (h : Sound count head)
    (hreaches : Reaches count head next) : Sound count next := by
  induction hreaches with
  | refl => exact h
  | tail _ hturn ih => exact ih.turn hturn

/-- The reader of slots goes on as the turn of the loop does. -/
theorem readFrom_eq (count : UInt16) (head : Head) :
    readFrom (count.toNat - head.index.toNat) head.index head.slots head.cursor =
      match head.turn count with
      | .inl result => result
      | .inr next =>
        readFrom (count.toNat - next.index.toNat) next.index next.slots next.cursor := by
  unfold turn
  by_cases hindex : head.index < count
  · have hlt := UInt16.lt_iff_toNat_lt.mp hindex
    have hleft := toNat_left hindex
    obtain ⟨remaining, hremaining⟩ : ∃ remaining, count.toNat - head.index.toNat = remaining + 1 :=
      ⟨count.toNat - head.index.toNat - 1, by omega⟩
    rw [if_pos hindex, hremaining, readFrom_succ]
    simp only [Bind.bind, Reader.bind]
    cases Constant.read head.index head.cursor with
    | error e => rfl
    | ok x =>
      obtain ⟨c, behind⟩ := x
      by_cases hwide : c.isWide = true
      · cases remaining with
        | zero =>
          have hfull : count - head.index < 2 := by
            rw [UInt16.lt_iff_toNat_lt, hleft, hremaining]
            decide
          simp [readBehind, hwide, hfull, Reader.fail]
        | succ remaining =>
          have hroom : ¬ count - head.index < 2 := by
            rw [UInt16.lt_iff_toNat_lt, hleft, hremaining, show (2 : UInt16).toNat = 2 from rfl]
            omega
          have hrest : count.toNat - (head.index + 2).toNat = remaining := by
            rw [(toNat_skip hindex hroom).1]
            omega
          simp only [readBehind, hwide, hroom, hrest, if_true, if_false]
      · have hrest : count.toNat - (head.index + 1).toNat = remaining := by
          rw [toNat_succ hindex]
          omega
        simp only [readBehind, hwide, hrest, Bool.false_eq_true, if_false]
  · have hlt := mt UInt16.lt_iff_toNat_lt.mpr hindex
    have hzero : count.toNat - head.index.toNat = 0 := by omega
    rw [if_neg hindex, hzero]
    rfl

/-- From every head that the loop comes to, the reader of slots goes on to the same result. -/
theorem readFrom_of_reaches {count : UInt16} {head next : Head}
    (hreaches : Reaches count head next) :
    readFrom (count.toNat - head.index.toNat) head.index head.slots head.cursor =
      readFrom (count.toNat - next.index.toNat) next.index next.slots next.cursor := by
  induction hreaches with
  | refl => rfl
  | @tail middle last _ hturn ih =>
    rw [ih, readFrom_eq count middle]
    simp only [hturn]

theorem index_lt_of_turn {count : UInt16} {head next : Head}
    (hturn : head.turn count = .inr next) :
    head.index < count ∧ head.index.toNat < next.index.toNat := by
  obtain ⟨hindex, c, behind, ⟨-, rfl⟩ | ⟨-, hroom, rfl⟩⟩ := of_turn_eq_inr hturn
  · refine ⟨hindex, ?_⟩
    rw [toNat_succ hindex]
    omega
  · refine ⟨hindex, ?_⟩
    rw [(toNat_skip hindex hroom).1]
    omega

/-- The loop comes to an end, and what it ends with is what the reader of slots returns. -/
theorem exists_last (count : UInt16) (head : Head) :
    ∃ last, Reaches count head last ∧ last.turn count =
      .inl (readFrom (count.toNat - head.index.toNat) head.index head.slots head.cursor) := by
  induction hleft : count.toNat - head.index.toNat using Nat.strong_induction_on
    generalizing head with
  | _ left ih =>
    rw [← hleft, readFrom_eq]
    cases hturn : head.turn count with
    | inl result => exact ⟨head, .refl, hturn⟩
    | inr next =>
      obtain ⟨hindex, hless⟩ := index_lt_of_turn hturn
      have hlt := UInt16.lt_iff_toNat_lt.mp hindex
      obtain ⟨last, hreaches, hlast⟩ := ih _ (by omega) next rfl
      exact ⟨last, .head hturn hreaches, hlast⟩

end Head

/-- A pool is read behind its slot count, from slot 1 on. -/
theorem read_eq_readFrom (count : UInt16) (offset : ℕ) (rest : Bytes) :
    Pool.read ⟨offset, layout16 count ++ rest⟩ =
      readFrom (count.toNat - 1) 1 #[none] ⟨offset + 2, rest⟩ := by
  have hcount : Reader.word16 .big ⟨offset, layout16 count ++ rest⟩ =
      (.ok (count, ⟨offset + 2, rest⟩) : Except Error _) := by
    apply (half_exact _ _ _).mpr
    exact ⟨layout16 count, ⟨trivial, rfl⟩, rfl, by simp [layout16, Bytes.length_ofNat]⟩
  exact bind_of_ok hcount _

theorem exists_last_of_read (count : UInt16) (offset : ℕ) (rest : Bytes) :
    ∃ last, Head.Reaches count (.start ⟨offset + 2, rest⟩) last ∧
      last.turn count = .inl (Pool.read ⟨offset, layout16 count ++ rest⟩) := by
  rw [read_eq_readFrom]
  exact Head.exists_last count (.start ⟨offset + 2, rest⟩)

/-- A pool as it is read: it has the declared slots, and slot 0 in any case. -/
structure Filled (pool : Pool) (count : UInt16) : Prop where
  size_eq : pool.size = max 1 count.toNat
  spaced : Spaced pool.slots
  closed : ¬ HoldsWide pool.slots (pool.size - 1)

theorem filled_of_read {cursor behind : Cursor} {pool : Pool}
    (h : Pool.read cursor = .ok (pool, behind)) :
    ∃ count, cursor.rest.take 2 = layout16 count ∧ pool.Filled count := by
  obtain ⟨_, ⟨count, raws, -, -, -, rfl⟩, hrest, -⟩ := (Pool.read_exact _ _ _).mp h
  obtain ⟨offset, rest⟩ := cursor
  rw [List.append_assoc] at hrest
  obtain rfl : rest = layout16 count ++ (raws.flatMap Constant.layout ++ behind.rest) := hrest
  obtain ⟨last, hreaches, hlast⟩ :=
    exists_last_of_read count offset (raws.flatMap Constant.layout ++ behind.rest)
  rw [h] at hlast
  have hsound := (Head.sound_start count _).reaches hreaches
  rcases Head.turn_cases count last with ⟨hindex, hend⟩ | ⟨e, hend⟩ | ⟨-, _, _, -, hnext⟩ |
    ⟨-, -, _, _, -, hnext⟩
  · obtain rfl : pool = ⟨last.slots⟩ := by
      have hpair := Except.ok.inj (Sum.inl.inj (hlast.symm.trans hend))
      exact congrArg Prod.fst hpair
    have hle := hsound.index_le
    have hlt := mt UInt16.lt_iff_toNat_lt.mpr hindex
    have hpos := hsound.spaced.size_pos
    have hsize := hsound.size_eq
    refine ⟨count, List.take_left' (Bytes.length_ofNat .big 2 _), ?_, hsound.spaced,
      hsound.closed⟩
    show last.slots.size = max 1 count.toNat
    omega
  · cases Sum.inl.inj (hlast.symm.trans hend)
  · cases hlast.symm.trans hnext
  · cases hlast.symm.trans hnext

/-- The usable slots with their positions, in increasing order. -/
def placed (pool : Pool) : List (ℕ × Constant String) :=
  pool.slots.toList.zipIdx.filterMap fun (slot, position) => slot.map fun c => (position, c)

section Entries

variable {pool : Pool} (hsize : pool.size ≤ UInt16.size)
include hsize

theorem toNat_position {place : Option (Constant String) × ℕ}
    (hplace : place ∈ pool.slots.toList.zipIdx) : place.2.toUInt16.toNat = place.2 := by
  have hbound : place.2 < pool.size := by simpa [Pool.size] using List.snd_lt_of_mem_zipIdx hplace
  rw [Nat.toUInt16_eq, UInt16.toNat_ofNat_of_lt' (by omega)]

theorem mem_entries_iff (index : UInt16) (c : Constant String) :
    (index, c) ∈ pool.entries ↔ pool.get index = .ok c := by
  rw [get_eq_ok_iff, Pool.get?, Option.join_eq_some_iff]
  simp only [entries, List.mem_filterMap, Option.map_eq_some_iff, Prod.mk.injEq]
  constructor
  · rintro ⟨⟨slot, position⟩, hmem, found, rfl, rfl, rfl⟩
    have hslot := List.mem_zipIdx_iff_getElem?.mp hmem
    rw [Array.getElem?_toList] at hslot
    rwa [toNat_position hsize hmem]
  · intro hslot
    refine ⟨(some c, index.toNat), ?_, c, rfl, ?_, rfl⟩
    · rw [List.mem_zipIdx_iff_getElem?, Array.getElem?_toList]
      exact hslot
    · simp

theorem pairwise_entries : pool.entries.Pairwise fun first second => first.1 < second.1 := by
  have hplaces : pool.slots.toList.zipIdx.Pairwise fun first second => first.2 < second.2 := by
    rw [← List.pairwise_map (f := Prod.snd), List.zipIdx_map_snd]
    exact List.pairwise_lt_range'
  apply List.pairwise_filterMap.mpr
  refine hplaces.imp_of_mem ?_
  intro first second hfirst hsecond hplace entry hentry entry' hentry'
  obtain ⟨_, -, rfl⟩ := Option.map_eq_some_iff.mp hentry
  obtain ⟨_, -, rfl⟩ := Option.map_eq_some_iff.mp hentry'
  rw [UInt16.lt_iff_toNat_lt, toNat_position hsize hfirst, toNat_position hsize hsecond]
  exact hplace

/-- The entries stand under their own positions: the words that hold the indices are wide enough. -/
theorem map_toNat_entries :
    pool.entries.map (fun entry => (entry.1.toNat, entry.2)) = pool.placed := by
  unfold entries placed
  rw [List.map_filterMap]
  apply List.filterMap_congr
  intro place hplace
  simp only [Option.map_map, Function.comp_def, toNat_position hsize hplace]

end Entries

end Pool

/-- The pool of a class file is read behind the magic and the versions, and declares slot 0 too. -/
theorem read_pool_of_parse {bytes : Bytes} {file : ClassFile} (h : parse bytes = .ok file) :
    (∃ behind, Pool.read ⟨8, bytes.drop 8⟩ = .ok (file.pool, behind)) ∧
      1 ≤ Bytes.toNat .big ((bytes.drop 8).take 2) := by
  obtain ⟨indexed, hfits, hdenotes, rfl⟩ := parse_eq_ok_iff.mp h
  have hcount : indexed.slotCount.toUInt16.toNat = indexed.slotCount := by
    rw [Nat.toUInt16_eq, UInt16.toNat_ofNat_of_lt' hfits.slots_count]
  have hword : layout16 indexed.slotCount.toUInt16 = Bytes.ofNat .big 2 indexed.slotCount := by
    rw [layout16, hcount]
  obtain ⟨back, hdrop⟩ : ∃ back, indexed.layout.drop 8 = layout16 indexed.slotCount.toUInt16
      ++ (indexed.constants.flatMap Constant.layout ++ back) := by
    refine ⟨layout16 indexed.accessFlags ++ (layout16 indexed.thisClass
      ++ (layout16 indexed.superClass ++ (layoutList layout16 indexed.interfaces
      ++ (layoutList IndexedMember.layout indexed.fields
      ++ (layoutList IndexedMember.layout indexed.methods
      ++ layoutList IndexedAttribute.layout indexed.attributes))))), ?_⟩
    rw [hword]
    have hfront : (layout32 magic ++ layout16 indexed.minorVersion
        ++ layout16 indexed.majorVersion).length = 8 := by
      simp [layout32, layout16, Bytes.length_ofNat]
    refine (congrArg (List.drop 8) ?_).trans (List.drop_left' hfront)
    simp only [IndexedClassFile.layout, List.append_assoc]
  refine ⟨⟨⟨8 + (layout16 indexed.slotCount.toUInt16
    ++ indexed.constants.flatMap Constant.layout).length, back⟩, ?_⟩, ?_⟩
  · apply (Pool.read_exact _ _ _).mpr
    refine ⟨_, ⟨indexed.slotCount.toUInt16, indexed.constants, hfits.constants_fit,
      hdenotes.constants, ?_, rfl⟩, ?_, rfl⟩
    · rw [hcount, IndexedClassFile.slotCount]
      omega
    · rw [hdrop, List.append_assoc]
  · rw [hdrop, hword, List.take_left' (Bytes.length_ofNat .big 2 _),
      Bytes.toNat_ofNat .big 2 _ hfits.slots_count, IndexedClassFile.slotCount]
    omega

/-- A class file has the slots that it declares. -/
theorem filled_of_parse {bytes : Bytes} {file : ClassFile} (h : parse bytes = .ok file) :
    ∃ count, Bytes.toNat .big ((bytes.drop 8).take 2) = count.toNat ∧
      file.pool.size = count.toNat ∧ file.pool.Filled count := by
  obtain ⟨⟨behind, hread⟩, hpos⟩ := read_pool_of_parse h
  obtain ⟨count, hdeclared, hfilled⟩ := Pool.filled_of_read hread
  have hcount : Bytes.toNat .big ((bytes.drop 8).take 2) = count.toNat := by
    rw [hdeclared]
    exact Bytes.toNat_ofNat .big 2 _ count.toNat_lt
  have hsize := hfilled.size_eq
  exact ⟨count, hcount, by omega, hfilled⟩

/-- In the pool of a class file the slots are those declared, each at the index of its constant, and
only slot 0 and the slots behind a long or a double are unusable. The entries are listed by their
indices. Any pool is read by the loop, whether it is accepted or not: at every head of the loop
there are as many slots as the index about to be read says, and the words that hold indices never
wrap. -/
theorem pool_slots_follow_indices :
    (∀ bytes file, parse bytes = .ok file →
      file.pool.size = Bytes.toNat .big ((bytes.drop 8).take 2) ∧
      file.pool.slots[0]? = some none ∧
      (∀ position, 1 ≤ position → position < file.pool.size →
        (file.pool.slots[position]? = some none ↔
          2 ≤ position ∧ Pool.HoldsWide file.pool.slots (position - 1))) ∧
      ¬ Pool.HoldsWide file.pool.slots (file.pool.size - 1) ∧
      (file.pool.entries.Pairwise fun first second => first.1 < second.1) ∧
      (∀ index c, (index, c) ∈ file.pool.entries ↔ file.pool.get index = .ok c) ∧
      file.pool.entries.map (fun entry => (entry.1.toNat, entry.2)) = file.pool.placed) ∧
    ∀ (count : UInt16) (offset : ℕ) (rest : Bytes),
      (∃ last, Pool.Head.Reaches count (.start ⟨offset + 2, rest⟩) last ∧
        last.turn count = .inl (Pool.read ⟨offset, layout16 count ++ rest⟩)) ∧
      ∀ head, Pool.Head.Reaches count (.start ⟨offset + 2, rest⟩) head →
        Pool.read ⟨offset, layout16 count ++ rest⟩ =
          Pool.readFrom (count.toNat - head.index.toNat) head.index head.slots head.cursor ∧
        head.slots.size = head.index.toNat ∧
        (head.index < count →
          (head.index + 1).toNat = head.index.toNat + 1 ∧
          (count - head.index).toNat + head.index.toNat = count.toNat ∧
          (¬ count - head.index < 2 → (head.index + 2).toNat = head.index.toNat + 2)) := by
  refine ⟨?_, ?_⟩
  · intro bytes file h
    obtain ⟨count, hdeclared, hsize, hfilled⟩ := filled_of_parse h
    have hwords : file.pool.size ≤ UInt16.size := by
      rw [hsize]
      exact Nat.le_of_lt count.toNat_lt
    exact ⟨hsize.trans hdeclared.symm, hfilled.spaced.first, hfilled.spaced.unusable_iff,
      hfilled.closed, Pool.pairwise_entries hwords, Pool.mem_entries_iff hwords,
      Pool.map_toNat_entries hwords⟩
  · intro count offset rest
    refine ⟨Pool.exists_last_of_read count offset rest, ?_⟩
    intro head hreaches
    have hread := (Pool.read_eq_readFrom count offset rest).trans
      (Pool.Head.readFrom_of_reaches hreaches)
    refine ⟨hread, ((Pool.Head.sound_start count _).reaches hreaches).size_eq, ?_⟩
    intro hindex
    have hleft := Pool.Head.toNat_left hindex
    have hlt := UInt16.lt_iff_toNat_lt.mp hindex
    exact ⟨Pool.Head.toNat_succ hindex, by omega, fun hroom =>
      (Pool.Head.toNat_skip hindex hroom).1⟩

/-- A class whose pool ends with a long, in the slots 3 and 4. -/
def longFile : Bytes :=
  [202, 254, 186, 190, 0, 0, 0, 52, 0, 5, 1, 0, 1, 67, 7, 0, 1, 5, 0, 0, 0, 0, 0, 0, 0, 1, 0, 33, 0,
    2, 0, 0, 0, 0, 0, 0, 0, 0, 0, 0]

/-- The loop is about to read the long. -/
def beforeLong : Pool.Head :=
  ⟨3, #[none, some (.utf8 "C"), some (.classRef 1)], ⟨17, longFile.drop 17⟩⟩

def behindLong : Pool.Head :=
  ⟨5, #[none, some (.utf8 "C"), some (.classRef 1), some (.long 1), none], ⟨26, longFile.drop 26⟩⟩

theorem pool_slots_follow_longFile :
    (∃ file, parse longFile = .ok file ∧ file.pool.size = 5 ∧
      file.pool.slots[3]? = some (some (.long 1)) ∧ file.pool.slots[4]? = some none) ∧
    Pool.Head.Reaches 5 (.start ⟨10, longFile.drop 10⟩) beforeLong ∧
    beforeLong.index < 5 ∧ ¬ 5 - beforeLong.index < 2 ∧ (beforeLong.index + 2).toNat = 3 + 2 ∧
    Pool.Head.Reaches 5 (.start ⟨10, longFile.drop 10⟩) behindLong ∧
    behindLong.slots.size = behindLong.index.toNat ∧
    Pool.read ⟨8, layout16 5 ++ longFile.drop 10⟩ =
      Pool.readFrom 0 5 behindLong.slots behindLong.cursor := by
  have hlong : (parse longFile).toOption.map (fun file => file.pool.slots[3]?) =
      some (some (some (.long 1))) := by decide +kernel
  have hbefore : Pool.Head.Reaches 5 (.start ⟨10, longFile.drop 10⟩) beforeLong := by
    have hname : (Pool.Head.start ⟨10, longFile.drop 10⟩).turn 5 =
        .inr ⟨2, #[none, some (.utf8 "C")], ⟨14, longFile.drop 14⟩⟩ := rfl
    exact .tail (.single hname) rfl
  have hbehind : Pool.Head.Reaches 5 (.start ⟨10, longFile.drop 10⟩) behindLong :=
    hbefore.tail rfl
  obtain ⟨hpool, hloop⟩ := pool_slots_follow_indices
  obtain ⟨-, hheads⟩ := hloop 5 8 (longFile.drop 10)
  obtain ⟨-, -, hwords⟩ := hheads beforeLong hbefore
  obtain ⟨hread, hslots, -⟩ := hheads behindLong hbehind
  have hroom : ¬ 5 - beforeLong.index < 2 := by decide
  refine ⟨?_, hbefore, by decide, hroom, (hwords (by decide)).2.2 hroom, hbehind, hslots, hread⟩
  cases hparse : parse longFile with
  | error e => simp [hparse, Except.toOption] at hlong
  | ok file =>
    obtain ⟨hsize, -, hunusable, -⟩ := hpool longFile file hparse
    have hfive : file.pool.size = 5 := hsize.trans (by decide)
    have hthree : file.pool.slots[3]? = some (some (.long 1)) := by
      simpa [hparse, Except.toOption] using hlong
    refine ⟨file, rfl, hfive, hthree, ?_⟩
    exact (hunusable 4 (by omega) (by omega)).mpr ⟨by omega, .long 1, hthree, Or.inl rfl⟩

end LiveDex.ClassFile
