import LiveDex.ClassFile.Layout
import LiveDex.Proofs.Reading
import Mathlib.Data.Nat.Init

/-!
Constant pools. A pool is read from the layout of its constants, with two slots for a long or a
double, and gives each constant with its text decoded. Its references are checked by one rule for
each kind of constant: every index must lead to a usable slot, and to a constant of the kind that
is needed there.
-/
namespace LiveDex.ClassFile

open Reader

theorem half_exact :
    Exact (.word16 .big : Reader Error UInt16) (Written (fun _ => True) layout16) :=
  word16_exact .big

theorem full_exact :
    Exact (.word32 .big : Reader Error UInt32) (Written (fun _ => True) layout32) :=
  word32_exact .big

private theorem double_exact :
    Exact (.word64 .big : Reader Error UInt64) (Written (fun _ => True) layout64) :=
  word64_exact .big

private theorem one_byte_exact :
    Exact (.byte : Reader Error UInt8) (Written (fun _ => True) (fun b => [b])) :=
  byte_exact.congr fun bytes b => by simp [Written]

/-- A length that fits the word in front of what it counts. -/
theorem layout16_ofNat {n : Nat} (hn : n < UInt16.size) :
    layout16 n.toUInt16 = Bytes.ofNat .big 2 n := by
  unfold layout16
  rw [Nat.toUInt16_eq, UInt16.toNat_ofNat_of_lt' hn]

namespace Constant

/-- A constant as it stands in the file denotes the one with its text decoded. -/
def Denotes (raw : Constant Bytes) (c : Constant String) : Prop :=
  raw.mapText? Text.ofClassFileBytes? = some c

theorem Denotes.kind_eq {raw : Constant Bytes} {c : Constant String} (h : raw.Denotes c) :
    c.kind = raw.kind := by
  unfold Denotes at h
  cases raw with
  | utf8 text =>
    obtain ⟨decoded, -, rfl⟩ := Option.map_eq_some_iff.mp h
    rfl
  | _ =>
    obtain rfl := Option.some.inj h
    rfl

section Bodies

variable {α β : Type} {first : Reader Error α} {second : Reader Error β} {layout : α → Bytes}
  {layout' : β → Bytes}

private theorem onePart_exact (hfirst : Exact first (Written (fun _ => True) layout))
    (make : α → Constant Bytes) :
    Exact (first >>= fun a => pure (make a))
      (fun bytes c => ∃ a, c = make a ∧ bytes = layout a) := by
  apply (hfirst.bindWritten (fun a => Exact.pure (make a))).congr
  intro bytes c
  constructor
  · rintro ⟨a, back, -, ⟨rfl, rfl⟩, rfl⟩
    exact ⟨a, rfl, List.append_nil _⟩
  · rintro ⟨a, rfl, rfl⟩
    exact ⟨a, [], trivial, ⟨rfl, rfl⟩, (List.append_nil _).symm⟩

private theorem twoParts_exact (hfirst : Exact first (Written (fun _ => True) layout))
    (hsecond : Exact second (Written (fun _ => True) layout')) (make : α → β → Constant Bytes) :
    Exact (first >>= fun a => second >>= fun b => pure (make a b))
      (fun bytes c => ∃ a b, c = make a b ∧ bytes = layout a ++ layout' b) := by
  apply (hfirst.bindWritten (fun a => onePart_exact hsecond (make a))).congr
  intro bytes c
  constructor
  · rintro ⟨a, back, -, ⟨b, rfl, rfl⟩, rfl⟩
    exact ⟨a, b, rfl, rfl⟩
  · rintro ⟨a, b, rfl, rfl⟩
    exact ⟨a, layout' b, trivial, ⟨b, rfl, rfl⟩, rfl⟩

end Bodies

private theorem text_exact :
    Exact (readBody .utf8) (fun bytes c => ∃ text, c = .utf8 text ∧ text.length < UInt16.size ∧
      bytes = Bytes.ofNat .big 2 text.length ++ text) := by
  apply (half_exact.bindWritten (fun length => (take_exact length.toNat).bind
    (fun text => Exact.pure (Constant.utf8 text)))).congr
  intro bytes c
  constructor
  · rintro ⟨length, _, -, ⟨_, text, _, ⟨rfl, hlength⟩, ⟨rfl, rfl⟩, rfl⟩, rfl⟩
    refine ⟨text, rfl, ?_, ?_⟩
    · rw [hlength]
      exact length.toNat_lt
    · rw [hlength, List.append_nil]
      rfl
  · rintro ⟨text, rfl, hlength, rfl⟩
    refine ⟨text.length.toUInt16, text, trivial,
      ⟨text, text, [], ⟨rfl, ?_⟩, ⟨rfl, rfl⟩, (List.append_nil _).symm⟩, ?_⟩
    · rw [Nat.toUInt16_eq, UInt16.toNat_ofNat_of_lt' hlength]
    · rw [layout16_ofNat hlength]

/-- Behind its tag, a constant of a kind is read from the layout of such a constant. -/
theorem readBody_exact (kind : Kind) :
    Exact (readBody kind) (Written (fun c => c.kind = kind ∧ c.Fits) bodyLayout) := by
  cases kind with
  | utf8 =>
    refine text_exact.congr fun bytes c => ?_
    cases c <;> simp [Written, Constant.kind, Fits, bodyLayout]
  | integer =>
    refine (onePart_exact full_exact fun n => .integer n.toInt32).congr fun bytes c => ?_
    cases c with
    | integer value =>
      constructor
      · rintro ⟨n, hvalue, rfl⟩
        obtain rfl := Constant.integer.inj hvalue
        exact ⟨⟨rfl, trivial⟩, rfl⟩
      · rintro ⟨-, rfl⟩
        exact ⟨value.toUInt32, rfl, rfl⟩
    | _ => simp [Written, Constant.kind]
  | long =>
    refine (onePart_exact double_exact fun n => .long n.toInt64).congr fun bytes c => ?_
    cases c with
    | long value =>
      constructor
      · rintro ⟨n, hvalue, rfl⟩
        obtain rfl := Constant.long.inj hvalue
        exact ⟨⟨rfl, trivial⟩, rfl⟩
      · rintro ⟨-, rfl⟩
        exact ⟨value.toUInt64, rfl, rfl⟩
    | _ => simp [Written, Constant.kind]
  | float =>
    refine (onePart_exact full_exact .float).congr fun bytes c => ?_
    cases c <;> simp [Written, Constant.kind, Fits, bodyLayout]
  | double =>
    refine (onePart_exact double_exact .double).congr fun bytes c => ?_
    cases c <;> simp [Written, Constant.kind, Fits, bodyLayout]
  | methodHandle =>
    refine (twoParts_exact one_byte_exact half_exact .methodHandle).congr fun bytes c => ?_
    cases c <;> simp [Written, Constant.kind, Fits, bodyLayout]
  | classRef | stringRef | methodType | moduleRef | packageRef =>
    refine Exact.congr (onePart_exact half_exact _) fun bytes c => ?_
    cases c <;> simp [Written, Constant.kind, Fits, bodyLayout]
  | fieldRef | methodRef | interfaceMethodRef | nameAndType | dynamic | invokeDynamic =>
    refine Exact.congr (twoParts_exact half_exact half_exact _) fun bytes c => ?_
    cases c <;> simp [Written, Constant.kind, Fits, bodyLayout]

theorem ofTag?_eq_some_iff (tag : UInt8) (kind : Kind) :
    Kind.ofTag? tag = some kind ↔ tag = kind.tag := by
  constructor
  · intro h
    have hfound := List.find?_some h
    exact (of_decide_eq_true hfound).symm
  · rintro rfl
    cases kind <;> rfl

private theorem decoded_exact (index : UInt16) (kind : Kind) :
    Exact (readBody kind >>= fun raw => match raw.mapText? Text.ofClassFileBytes? with
        | none => Reader.fail (Error.invalidText index)
        | some c => Pure.pure c)
      (fun bytes c => ∃ raw : Constant Bytes, raw.kind = kind ∧ raw.Fits ∧ raw.Denotes c ∧
        bytes = raw.bodyLayout) := by
  apply ((readBody_exact kind).bindWritten (fun raw =>
    Exact.ofOption (o := raw.mapText? Text.ofClassFileBytes?) (fun c h => by rw [h])
      (fun h => by rw [h]))).congr
  intro bytes c
  constructor
  · rintro ⟨raw, back, ⟨hkind, hfits⟩, ⟨rfl, hdenotes⟩, rfl⟩
    exact ⟨raw, hkind, hfits, hdenotes, List.append_nil _⟩
  · rintro ⟨raw, hkind, hfits, hdenotes, rfl⟩
    exact ⟨raw, [], ⟨hkind, hfits⟩, ⟨rfl, hdenotes⟩, (List.append_nil _).symm⟩

/-- A constant is read from its layout, and its text from the bytes that stand for it. -/
theorem read_exact (index : UInt16) :
    Exact (Constant.read index) (Denoted Fits layout Denotes) := by
  refine Exact.congr (r := Constant.read index) (byte_exact.bind (fun tag =>
    Exact.whenSome (o := Kind.ofTag? tag) (decoded_exact index) (fun kind h => h ▸ rfl)
      (fun h => by rw [h]))) ?_
  intro bytes c
  simp only [ofTag?_eq_some_iff]
  constructor
  · rintro ⟨tag, _, _, rfl, ⟨kind, rfl, raw, rfl, hfits, hdenotes, rfl⟩, rfl⟩
    exact ⟨raw, hfits, hdenotes, rfl⟩
  · rintro ⟨raw, hfits, hdenotes, rfl⟩
    exact ⟨raw.kind.tag, [raw.kind.tag], raw.bodyLayout, rfl,
      ⟨raw.kind, rfl, raw, rfl, hfits, hdenotes, rfl⟩, rfl⟩

theorem Denotes.isWide_eq {raw : Constant Bytes} {c : Constant String} (h : raw.Denotes c) :
    c.isWide = raw.isWide := by
  simp only [isWide, h.kind_eq]

theorem length_slots {τ : Type} (c : Constant τ) :
    c.slots.length = if c.isWide then 2 else 1 := by
  unfold slots
  split <;> rfl

end Constant

namespace Pool

/-- The rest of a pool behind a constant: a long or double leaves out the next slot, and there must
be one. -/
def readBehind (remaining : Nat) (index : UInt16)
    (slots : Array (Option (Constant String))) (c : Constant String) : Reader Error Pool :=
  if c.isWide then
    match remaining with
    | 0 => Reader.fail (.invalidIndex (index + 1))
    | remaining + 1 => readFrom remaining (index + 2) ((slots.push (some c)).push none)
  else readFrom remaining (index + 1) (slots.push (some c))

theorem readFrom_succ (remaining : Nat) (index : UInt16)
    (slots : Array (Option (Constant String))) :
    readFrom (remaining + 1) index slots =
      Constant.read index >>= readBehind remaining index slots := by
  funext cursor
  simp only [readFrom, Bind.bind, Reader.bind, readBehind]
  cases Constant.read index cursor with
  | error e => rfl
  | ok x =>
    obtain ⟨c, behind⟩ := x
    by_cases hwide : c.isWide
    · cases remaining <;> simp [hwide, Reader.fail]
    · simp [hwide]

/-- The grammar of constants that take the given number of slots behind those of a pool. -/
private def Fills (slots : Array (Option (Constant String))) (count : Nat) (bytes : Bytes)
    (pool : Pool) : Prop :=
  ∃ raws constants, (∀ raw ∈ raws, raw.Fits) ∧ List.Forall₂ Constant.Denotes raws constants ∧
    (raws.flatMap Constant.slots).length = count ∧ bytes = raws.flatMap Constant.layout ∧
    pool = ⟨slots ++ (constants.flatMap Constant.slots).toArray⟩

private theorem fills_zero_iff (slots : Array (Option (Constant String))) (bytes : Bytes)
    (pool : Pool) : Fills slots 0 bytes pool ↔ bytes = [] ∧ pool = ⟨slots⟩ := by
  constructor
  · rintro ⟨raws, constants, -, hdenotes, hcount, rfl, rfl⟩
    cases hdenotes with
    | nil => simp
    | @cons raw c raws constants _ _ =>
      simp only [List.flatMap_cons, List.length_append, Constant.length_slots] at hcount
      split at hcount <;> omega
  · rintro ⟨rfl, rfl⟩
    exact ⟨[], [], by simp, .nil, rfl, rfl, by simp⟩

private theorem fills_succ_iff (slots : Array (Option (Constant String))) (count : Nat)
    (bytes : Bytes) (pool : Pool) :
    Fills slots (count + 1) bytes pool ↔ ∃ (raw : Constant Bytes) (c : Constant String)
        (back : Bytes), raw.Fits ∧ raw.Denotes c ∧
      (if c.isWide then 2 else 1) ≤ count + 1 ∧
      Fills (slots ++ c.slots.toArray) (count + 1 - if c.isWide then 2 else 1) back pool ∧
      bytes = raw.layout ++ back := by
  constructor
  · rintro ⟨raws, constants, hfits, hdenotes, hcount, rfl, rfl⟩
    cases hdenotes with
    | nil => simp at hcount
    | @cons raw c raws constants hraw hrest =>
      simp only [List.flatMap_cons, List.length_append, Constant.length_slots,
        ← hraw.isWide_eq] at hcount
      obtain ⟨hfirst, hothers⟩ := List.forall_mem_cons.mp hfits
      refine ⟨raw, c, raws.flatMap Constant.layout, hfirst, hraw, by omega,
        ⟨raws, constants, hothers, hrest, by omega, rfl, ?_⟩, rfl⟩
      simp
  · rintro ⟨raw, c, back, hfits, hraw, hle, ⟨raws, constants, hothers, hrest, hcount, rfl, rfl⟩,
      rfl⟩
    refine ⟨raw :: raws, c :: constants, List.forall_mem_cons.mpr ⟨hfits, hothers⟩,
      .cons hraw hrest, ?_, rfl, ?_⟩
    · simp only [List.flatMap_cons, List.length_append, Constant.length_slots, ← hraw.isWide_eq]
      omega
    · simp

private theorem readFrom_exact (count : Nat) (index : UInt16)
    (slots : Array (Option (Constant String))) :
    Exact (readFrom count index slots) (Fills slots count) := by
  induction count using Nat.strong_induction_on generalizing index slots with
  | _ count ih =>
    cases count with
    | zero => exact (Exact.pure _).congr (fun bytes pool => (fills_zero_iff slots bytes pool).symm)
    | succ remaining =>
      have hbehind (c : Constant String) : Exact (readBehind remaining index slots c)
          (fun bytes pool => (if c.isWide then 2 else 1) ≤ remaining + 1 ∧
            Fills (slots ++ c.slots.toArray) (remaining + 1 - if c.isWide then 2 else 1)
              bytes pool) := by
        unfold readBehind
        by_cases hwide : c.isWide
        · have hslots : (slots.push (some c)).push none = slots ++ c.slots.toArray := by
            apply Array.toList_inj.mp
            simp [Constant.slots, hwide]
          cases remaining with
          | zero => simpa [hwide] using Exact.fail (Error.invalidIndex (index + 1))
          | succ remaining =>
            have hrest := ih remaining (by omega) (index + 2) (slots ++ c.slots.toArray)
            simpa [hwide, hslots] using hrest
        · have hslots : slots.push (some c) = slots ++ c.slots.toArray := by
            simp [Constant.slots, hwide]
          have hrest := ih remaining (by omega) (index + 1) (slots ++ c.slots.toArray)
          simpa [hwide, hslots] using hrest
      rw [readFrom_succ]
      apply ((Constant.read_exact index).bind hbehind).congr
      intro bytes pool
      rw [fills_succ_iff]
      constructor
      · rintro ⟨c, _, back, ⟨raw, hfits, hraw, rfl⟩, ⟨hle, hback⟩, rfl⟩
        exact ⟨raw, c, back, hfits, hraw, hle, hback, rfl⟩
      · rintro ⟨raw, c, back, hfits, hraw, hle, hback, rfl⟩
        exact ⟨c, raw.layout, back, ⟨raw, hfits, hraw, rfl⟩, ⟨hle, hback⟩, rfl⟩

/-- The pool holds the constants that the file gives, with their texts decoded. -/
def Holds (pool : Pool) (raws : List (Constant Bytes)) : Prop :=
  ∃ constants, List.Forall₂ Constant.Denotes raws constants ∧ pool = ofConstants constants

/-- A pool is read from its slot count and the layout of its constants. A pool without constants
has slot 0 alone, and then a count of 0 is taken like the count of 1. -/
theorem read_exact :
    Exact Pool.read (fun bytes pool => ∃ (count : UInt16) (raws : List (Constant Bytes)),
      (∀ raw ∈ raws, raw.Fits) ∧ pool.Holds raws ∧
      (raws.flatMap Constant.slots).length = count.toNat - 1 ∧
      bytes = layout16 count ++ raws.flatMap Constant.layout) := by
  have hstart (constants : List (Constant String)) :
      (⟨#[none] ++ (constants.flatMap Constant.slots).toArray⟩ : Pool) = ofConstants constants := by
    simp [ofConstants]
  apply (half_exact.bindWritten (fun count =>
    readFrom_exact (count.toNat - 1) 1 #[none])).congr
  intro bytes pool
  constructor
  · rintro ⟨count, _, -, ⟨raws, constants, hfits, hdenotes, hcount, rfl, rfl⟩, rfl⟩
    exact ⟨count, raws, hfits, ⟨constants, hdenotes, hstart constants⟩, hcount, rfl⟩
  · rintro ⟨count, raws, hfits, ⟨constants, hdenotes, rfl⟩, hcount, rfl⟩
    exact ⟨count, _, trivial,
      ⟨raws, constants, hfits, hdenotes, hcount, rfl, (hstart constants).symm⟩, rfl⟩

/-- The index is that of the text. -/
def HasText (pool : Pool) (index : UInt16) (text : String) : Prop :=
  pool.get? index = some (.utf8 text)

/-- The index is that of a class with the name. -/
def HasClass (pool : Pool) (index : UInt16) (name : String) : Prop :=
  ∃ nameIndex, pool.get? index = some (.classRef nameIndex) ∧ pool.HasText nameIndex name

/-- The index is that of a constant of the kind. -/
def HasKind (pool : Pool) (index : UInt16) (kind : Kind) : Prop :=
  ∃ c, pool.get? index = some c ∧ c.kind = kind

variable (pool : Pool)

theorem get_eq_ok_iff (index : UInt16) (c : Constant String) :
    pool.get index = .ok c ↔ pool.get? index = some c := by
  unfold Pool.get
  cases pool.get? index <;> simp

theorem text_eq_ok_iff (index : UInt16) (text : String) :
    pool.text index = .ok text ↔ pool.HasText index text := by
  unfold Pool.text Pool.get HasText
  cases pool.get? index with
  | none => simp
  | some c => cases c <;> simp

theorem className_eq_ok_iff (index : UInt16) (name : String) :
    pool.className index = .ok name ↔ pool.HasClass index name := by
  unfold Pool.className Pool.get HasClass
  cases pool.get? index with
  | none => simp
  | some c => cases c <;> simp [text_eq_ok_iff]

end Pool

/-- Every index that the constant holds leads to what is needed there. -/
def Constant.SoundIn (pool : Pool) : Constant String → Prop
  | .classRef index | .stringRef index | .methodType index
  | .moduleRef index | .packageRef index => pool.HasKind index .utf8
  | .nameAndType name descriptor => pool.HasKind name .utf8 ∧ pool.HasKind descriptor .utf8
  | .fieldRef owner signature | .methodRef owner signature
  | .interfaceMethodRef owner signature =>
    pool.HasKind owner .classRef ∧ pool.HasKind signature .nameAndType
  | .dynamic _ signature | .invokeDynamic _ signature => pool.HasKind signature .nameAndType
  | .methodHandle _ reference => ∃ c, pool.get? reference = some c
  | .utf8 _ | .integer _ | .float _ | .long _ | .double _ => True

namespace Pool

def Sound (pool : Pool) : Prop :=
  ∀ c, some c ∈ pool.slots → c.SoundIn pool

variable (pool : Pool)

theorem fault?_some_eq_none_iff (index : UInt16) (kind : Kind) :
    pool.fault? (index, some kind) = none ↔ pool.HasKind index kind := by
  unfold fault? Pool.get HasKind
  cases pool.get? index <;> simp

theorem fault?_none_eq_none_iff (index : UInt16) :
    pool.fault? (index, none) = none ↔ ∃ c, pool.get? index = some c := by
  unfold fault? Pool.get
  cases pool.get? index <;> simp

theorem forall_references_iff (c : Constant String) :
    (∀ reference ∈ c.references, pool.fault? reference = none) ↔ c.SoundIn pool := by
  cases c <;> simp [Constant.references, Constant.SoundIn, fault?_some_eq_none_iff,
    fault?_none_eq_none_iff]

theorem exists_mem_entries_iff (c : Constant String) :
    (∃ index, (index, c) ∈ pool.entries) ↔ some c ∈ pool.slots := by
  simp only [entries, List.mem_filterMap, Option.map_eq_some_iff, Prod.mk.injEq]
  constructor
  · rintro ⟨index, ⟨slot, position⟩, hmem, found, hslot, -, rfl⟩
    have hfst := List.fst_mem_of_mem_zipIdx hmem
    rw [hslot] at hfst
    exact Array.mem_toList_iff.mp hfst
  · intro h
    obtain ⟨position, hposition, hget⟩ := List.getElem_of_mem (Array.mem_toList_iff.mpr h)
    refine ⟨position.toUInt16, (some c, position), ?_, c, rfl, rfl, rfl⟩
    rw [List.mem_zipIdx_iff_getElem?]
    simp [← hget]

theorem checkReferences_eq_ok_iff_faultless :
    pool.checkReferences = .ok () ↔
      ∀ reference ∈ pool.references, pool.fault? reference = none := by
  unfold checkReferences
  rw [← List.findSome?_eq_none_iff]
  split <;> simp_all

/-- The check of references follows the rule of each constant. -/
theorem checkReferences_eq_ok_iff : pool.checkReferences = .ok () ↔ pool.Sound := by
  rw [checkReferences_eq_ok_iff_faultless]
  unfold Sound
  simp only [references, List.mem_flatMap, Prod.exists, ← forall_references_iff,
    ← exists_mem_entries_iff]
  constructor
  · rintro h c ⟨index, hentry⟩ reference hreference
    exact h reference ⟨index, c, hentry, hreference⟩
  · rintro h reference ⟨index, c, hentry, hreference⟩
    exact h c ⟨index, hentry⟩ reference hreference

end Pool

end LiveDex.ClassFile
