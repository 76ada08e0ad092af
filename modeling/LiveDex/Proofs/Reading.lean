import LiveDex.Proofs.Words
import LiveDex.Reader
import Mathlib.Data.List.Forall2

/-!
What a reader accepts, told as a grammar: a relation between byte strings and values. A reader is
exact for a grammar when its successful runs are the decompositions of the input into a byte
string of the grammar and the rest, with the offset moved over that byte string. Exactness goes
through sequencing, checks and repetition, so that it is proved once for each part of a format.
-/
namespace LiveDex.Reader

variable {ε α β : Type} {r : Reader ε α} {f : α → Reader ε β}

/-- The successful runs of the reader are the ways to cut a byte string of the grammar off the
front of the input. -/
def Exact (r : Reader ε α) (grammar : Bytes → α → Prop) : Prop :=
  ∀ (c : Cursor) (a : α) (c' : Cursor), r c = .ok (a, c') ↔
    ∃ bytes, grammar bytes a ∧ c.rest = bytes ++ c'.rest ∧ c'.offset = c.offset + bytes.length

/-- The grammar of values that are written in one way only, if at all. -/
def Written (fits : α → Prop) (layout : α → Bytes) (bytes : Bytes) (a : α) : Prop :=
  fits a ∧ bytes = layout a

/-- The grammar of values that stand for something written: the byte string lays out a raw form,
and the value is what the raw form denotes. -/
def Denoted {ρ : Type} (fits : ρ → Prop) (layout : ρ → Bytes) (denotes : ρ → α → Prop)
    (bytes : Bytes) (a : α) : Prop :=
  ∃ raw, fits raw ∧ denotes raw a ∧ bytes = layout raw

theorem behind_written_iff {fits : α → Prop} {layout : α → Bytes} {H : α → Bytes → β → Prop}
    {bytes : Bytes} {b : β} :
    (∃ a front back, Written fits layout front a ∧ H a back b ∧ bytes = front ++ back) ↔
      ∃ a back, fits a ∧ H a back b ∧ bytes = layout a ++ back := by
  constructor
  · rintro ⟨a, _, back, ⟨hfits, rfl⟩, hback, hbytes⟩
    exact ⟨a, back, hfits, hback, hbytes⟩
  · rintro ⟨a, back, hfits, hback, hbytes⟩
    exact ⟨a, layout a, back, ⟨hfits, rfl⟩, hback, hbytes⟩

theorem behind_denoted_iff {ρ : Type} {fits : ρ → Prop} {layout : ρ → Bytes}
    {denotes : ρ → α → Prop} {H : α → Bytes → β → Prop} {bytes : Bytes} {b : β} :
    (∃ a front back, Denoted fits layout denotes front a ∧ H a back b ∧ bytes = front ++ back) ↔
      ∃ raw a back, fits raw ∧ denotes raw a ∧ H a back b ∧ bytes = layout raw ++ back := by
  constructor
  · rintro ⟨a, _, back, ⟨raw, hfits, hdenotes, rfl⟩, hback, hbytes⟩
    exact ⟨raw, a, back, hfits, hdenotes, hback, hbytes⟩
  · rintro ⟨raw, a, back, hfits, hdenotes, hback, hbytes⟩
    exact ⟨a, layout raw, back, ⟨raw, hfits, hdenotes, rfl⟩, hback, hbytes⟩

/-- Values behind each other, each with a byte string of its own. -/
inductive Sequence (grammar : Bytes → α → Prop) : Bytes → List α → Prop
  | nil : Sequence grammar [] []
  | cons {front back : Bytes} {a : α} {as : List α} (head : grammar front a)
      (tail : Sequence grammar back as) : Sequence grammar (front ++ back) (a :: as)

theorem sequence_written_iff (fits : α → Prop) (layout : α → Bytes) (bytes : Bytes)
    (as : List α) :
    Sequence (Written fits layout) bytes as ↔ (∀ a ∈ as, fits a) ∧ bytes = as.flatMap layout := by
  constructor
  · intro h
    induction h with
    | nil => simp
    | cons head tail ih =>
      obtain ⟨hfits, rfl⟩ := head
      obtain ⟨hall, rfl⟩ := ih
      simpa using ⟨hfits, hall⟩
  · rintro ⟨hall, rfl⟩
    induction as with
    | nil => exact .nil
    | cons a as ih =>
      have htail := ih (fun x hx => hall x (List.mem_cons_of_mem a hx))
      exact .cons ⟨hall a List.mem_cons_self, rfl⟩ htail

theorem sequence_denoted_iff {ρ : Type} (fits : ρ → Prop) (layout : ρ → Bytes)
    (denotes : ρ → α → Prop) (bytes : Bytes) (as : List α) :
    Sequence (Denoted fits layout denotes) bytes as ↔ ∃ raws, (∀ raw ∈ raws, fits raw) ∧
      List.Forall₂ denotes raws as ∧ bytes = raws.flatMap layout := by
  constructor
  · intro h
    induction h with
    | nil => exact ⟨[], by simp, .nil, rfl⟩
    | cons head tail ih =>
      obtain ⟨raw, hfits, hdenotes, rfl⟩ := head
      obtain ⟨raws, hall, hrest, rfl⟩ := ih
      exact ⟨raw :: raws, List.forall_mem_cons.mpr ⟨hfits, hall⟩, .cons hdenotes hrest, rfl⟩
  · rintro ⟨raws, hall, hdenotes, rfl⟩
    induction hdenotes with
    | nil => exact .nil
    | cons hraw _ ih =>
      obtain ⟨hfits, hrest⟩ := List.forall_mem_cons.mp hall
      exact .cons ⟨_, hfits, hraw, rfl⟩ (ih hrest)

theorem bind_eq_ok_iff (r : Reader ε α) (f : α → Reader ε β) (c : Cursor) (x : β × Cursor) :
    (r >>= f) c = .ok x ↔ ∃ a c', r c = .ok (a, c') ∧ f a c' = .ok x := by
  simp only [Bind.bind, Reader.bind]
  cases hr : r c with
  | error e => simp
  | ok y =>
    obtain ⟨a, c'⟩ := y
    constructor
    · intro h
      exact ⟨a, c', rfl, h⟩
    · rintro ⟨a', c'', heq, h⟩
      cases heq
      exact h

theorem bind_of_ok {c c' : Cursor} {a : α} (h : r c = .ok (a, c')) (f : α → Reader ε β) :
    (r >>= f) c = f a c' := by
  simp only [Bind.bind, Reader.bind, h]

theorem bind_of_error {c : Cursor} {e : ε} (h : r c = .error e) (f : α → Reader ε β) :
    (r >>= f) c = .error e := by
  simp only [Bind.bind, Reader.bind, h]

theorem bind_bind {γ : Type} (r : Reader ε α) (f : α → Reader ε β) (g : β → Reader ε γ) :
    r >>= f >>= g = r >>= fun a => f a >>= g := by
  funext c
  simp only [Bind.bind, Reader.bind]
  cases r c <;> rfl

theorem pure_eq_ok_iff (a : α) (c : Cursor) (x : α × Cursor) :
    (pure a : Reader ε α) c = .ok x ↔ x = (a, c) := by
  change Except.ok (a, c) = Except.ok x ↔ _
  rw [Except.ok.injEq, eq_comm]

namespace Exact

variable {G : Bytes → α → Prop} {H : α → Bytes → β → Prop}

theorem congr {G' : Bytes → α → Prop} (hr : Exact r G) (hG : ∀ bytes a, G bytes a ↔ G' bytes a) :
    Exact r G' := by
  intro c a c'
  rw [hr c a c']
  simp only [hG]

theorem pure (a : α) : Exact (Pure.pure a : Reader ε α) (fun bytes x => bytes = [] ∧ x = a) := by
  intro c x c'
  rw [pure_eq_ok_iff]
  constructor
  · intro h
    cases h
    exact ⟨[], ⟨rfl, rfl⟩, rfl, rfl⟩
  · rintro ⟨bytes, ⟨rfl, rfl⟩, hrest, hoffset⟩
    obtain ⟨offset, rest⟩ := c
    obtain ⟨offset', rest'⟩ := c'
    simp only [List.nil_append, List.length_nil, Nat.add_zero] at hrest hoffset
    rw [hrest, hoffset]

theorem fail (e : ε) : Exact (Reader.fail e : Reader ε α) (fun _ _ => False) := by
  intro c a c'
  simp [Reader.fail]

/-- Running one reader behind the other puts their byte strings behind each other. -/
theorem bind (hr : Exact r G) (hf : ∀ a, Exact (f a) (H a)) :
    Exact (r >>= f)
      (fun bytes b => ∃ a front back, G front a ∧ H a back b ∧ bytes = front ++ back) := by
  intro c b c'
  rw [bind_eq_ok_iff]
  constructor
  · rintro ⟨a, mid, ha, hb⟩
    obtain ⟨front, hfront, hrest, hoffset⟩ := (hr c a mid).mp ha
    obtain ⟨back, hback, hrest', hoffset'⟩ := (hf a mid b c').mp hb
    refine ⟨front ++ back, ⟨a, front, back, hfront, hback, rfl⟩, ?_, ?_⟩
    · rw [hrest, hrest', List.append_assoc]
    · rw [hoffset', hoffset, List.length_append, Nat.add_assoc]
  · rintro ⟨bytes, ⟨a, front, back, hfront, hback, rfl⟩, hrest, hoffset⟩
    refine ⟨a, ⟨c.offset + front.length, back ++ c'.rest⟩, ?_, ?_⟩
    · apply (hr _ _ _).mpr
      exact ⟨front, hfront, by rw [hrest, List.append_assoc], rfl⟩
    · apply (hf _ _ _ _).mpr
      refine ⟨back, hback, rfl, ?_⟩
      rw [hoffset, List.length_append, Nat.add_assoc]

/-- As `bind`, behind a reader of values that are written in one way. -/
theorem bindWritten {fits : α → Prop} {layout : α → Bytes} (hr : Exact r (Written fits layout))
    (hf : ∀ a, Exact (f a) (H a)) :
    Exact (r >>= f) (fun bytes b => ∃ a back, fits a ∧ H a back b ∧ bytes = layout a ++ back) :=
  (hr.bind hf).congr fun _ _ => behind_written_iff

/-- As `bind`, behind a reader of values that stand for something written. -/
theorem bindDenoted {ρ : Type} {fits : ρ → Prop} {layout : ρ → Bytes} {denotes : ρ → α → Prop}
    (hr : Exact r (Denoted fits layout denotes)) (hf : ∀ a, Exact (f a) (H a)) :
    Exact (r >>= f) (fun bytes b => ∃ raw a back, fits raw ∧ denotes raw a ∧ H a back b ∧
      bytes = layout raw ++ back) :=
  (hr.bind hf).congr fun _ _ => behind_denoted_iff

/-- A check in front of a reader narrows what the reader accepts. -/
theorem check {p : Prop} [Decidable p] {e : ε} {k : Unit → Reader ε α} (hk : Exact (k ()) G) :
    Exact (if p then Reader.fail e >>= k else k ()) (fun bytes a => ¬ p ∧ G bytes a) := by
  intro c a c'
  by_cases hp : p
  · simp [hp, Reader.bind_eq_ok_iff, Reader.fail]
  · simpa [hp] using hk c a c'

theorem ite {p : Prop} [Decidable p] {r' : Reader ε α} {G' : Bytes → α → Prop}
    (hr : Exact r G) (hr' : Exact r' G') :
    Exact (if p then r else r') (fun bytes a => (p ∧ G bytes a) ∨ (¬ p ∧ G' bytes a)) := by
  intro c a c'
  by_cases hp : p
  · simpa [hp] using hr c a c'
  · simpa [hp] using hr' c a c'

/-- A reader that goes on with a value which may be missing. -/
theorem whenSome {o : Option α} {e : ε} {r : Reader ε β} (hf : ∀ a, Exact (f a) (H a))
    (hsome : ∀ a, o = some a → r = f a) (hnone : o = none → r = Reader.fail e) :
    Exact r (fun bytes b => ∃ a, o = some a ∧ H a bytes b) := by
  cases o with
  | none =>
    rw [hnone rfl]
    exact (Exact.fail e).congr (fun bytes b => by simp)
  | some x =>
    rw [hsome x rfl]
    exact (hf x).congr (fun bytes b => by simp)

/-- A value that may be missing is returned without reading on. -/
theorem ofOption {o : Option α} {e : ε} (hsome : ∀ a, o = some a → r = Pure.pure a)
    (hnone : o = none → r = Reader.fail e) :
    Exact r (fun bytes a => bytes = [] ∧ o = some a) := by
  apply (whenSome Exact.pure hsome hnone).congr
  intro bytes a
  constructor
  · rintro ⟨x, ho, rfl, rfl⟩
    exact ⟨rfl, ho⟩
  · rintro ⟨rfl, ho⟩
    exact ⟨a, ho, rfl, rfl⟩

theorem ofExcept {x : Except ε α} :
    Exact (Reader.ofExcept x) (fun bytes a => bytes = [] ∧ x = .ok a) := by
  cases x with
  | error e => exact (Exact.fail e).congr (fun bytes a => by simp)
  | ok x => exact (Exact.pure x).congr (fun bytes a => by simp [eq_comm])

end Exact

/-- The reader uses up the input, which must be a byte string of the grammar. -/
def ExactToEnd (r : Reader ε α) (grammar : Bytes → α → Prop) : Prop :=
  ∀ (c : Cursor) (a : α) (c' : Cursor), r c = .ok (a, c') ↔
    grammar c.rest a ∧ c' = ⟨c.offset + c.rest.length, []⟩

namespace ExactToEnd

variable {G : Bytes → α → Prop} {H : α → Bytes → β → Prop}

theorem congr {G' : Bytes → α → Prop} (hr : ExactToEnd r G)
    (hG : ∀ bytes a, G bytes a ↔ G' bytes a) : ExactToEnd r G' := by
  intro c a c'
  rw [hr c a c', hG]

/-- A reader that returns a value if nothing is left of the input, and fails otherwise. -/
theorem finishOr (a : α) {k : Reader ε α} (hk : ∀ c x, k c ≠ .ok x) :
    ExactToEnd (do if (← atEnd) then Pure.pure a else k) (fun bytes x => bytes = [] ∧ x = a) := by
  rintro ⟨offset, rest⟩ x c'
  rw [bind_eq_ok_iff]
  simp only [atEnd]
  cases rest with
  | nil => simp [pure_eq_ok_iff, and_comm]
  | cons b rest => simp [hk]

theorem finish (a : α) (e : ε) {k : Unit → Reader ε α} :
    ExactToEnd (do if (← atEnd) then Pure.pure a else Reader.fail e >>= k)
      (fun bytes x => bytes = [] ∧ x = a) :=
  finishOr a fun c x => by simp [bind_eq_ok_iff, Reader.fail]

/-- Nothing is left to read behind a reader that uses up the input. -/
theorem andThen {P : α → β → Prop} (hr : ExactToEnd r G)
    (hf : ∀ a, Exact (f a) (fun bytes b => bytes = [] ∧ P a b)) :
    ExactToEnd (r >>= f) (fun bytes b => ∃ a, G bytes a ∧ P a b) := by
  intro c b c'
  rw [bind_eq_ok_iff]
  constructor
  · rintro ⟨a, mid, ha, hb⟩
    obtain ⟨hbytes, rfl⟩ := (hr c a mid).mp ha
    obtain ⟨back, ⟨rfl, hP⟩, hrest, hoffset⟩ := (hf a _ b c').mp hb
    refine ⟨⟨a, hbytes, hP⟩, ?_⟩
    obtain ⟨offset', rest'⟩ := c'
    simp only [List.nil_append, List.length_nil, Nat.add_zero] at hrest hoffset
    rw [← hrest, hoffset]
  · rintro ⟨⟨a, hbytes, hP⟩, rfl⟩
    refine ⟨a, _, (hr c a _).mpr ⟨hbytes, rfl⟩, ?_⟩
    exact (hf a _ b _).mpr ⟨[], ⟨rfl, hP⟩, rfl, rfl⟩

theorem bind (hr : Exact r G) (hf : ∀ a, ExactToEnd (f a) (H a)) :
    ExactToEnd (r >>= f)
      (fun bytes b => ∃ a front back, G front a ∧ H a back b ∧ bytes = front ++ back) := by
  intro c b c'
  rw [bind_eq_ok_iff]
  constructor
  · rintro ⟨a, mid, ha, hb⟩
    obtain ⟨front, hfront, hrest, hoffset⟩ := (hr c a mid).mp ha
    obtain ⟨hback, rfl⟩ := (hf a mid b c').mp hb
    refine ⟨⟨a, front, mid.rest, hfront, hback, hrest⟩, ?_⟩
    rw [hrest, hoffset, List.length_append, Nat.add_assoc]
  · rintro ⟨⟨a, front, back, hfront, hback, hrest⟩, rfl⟩
    refine ⟨a, ⟨c.offset + front.length, back⟩, ?_, ?_⟩
    · exact (hr _ _ _).mpr ⟨front, hfront, hrest, rfl⟩
    · apply (hf _ _ _ _).mpr
      refine ⟨hback, ?_⟩
      rw [hrest, List.length_append, Nat.add_assoc]

theorem bindWritten {fits : α → Prop} {layout : α → Bytes} (hr : Exact r (Written fits layout))
    (hf : ∀ a, ExactToEnd (f a) (H a)) :
    ExactToEnd (r >>= f)
      (fun bytes b => ∃ a back, fits a ∧ H a back b ∧ bytes = layout a ++ back) :=
  (bind hr hf).congr fun _ _ => behind_written_iff

theorem bindDenoted {ρ : Type} {fits : ρ → Prop} {layout : ρ → Bytes} {denotes : ρ → α → Prop}
    (hr : Exact r (Denoted fits layout denotes)) (hf : ∀ a, ExactToEnd (f a) (H a)) :
    ExactToEnd (r >>= f) (fun bytes b => ∃ raw a back, fits raw ∧ denotes raw a ∧ H a back b ∧
      bytes = layout raw ++ back) :=
  (bind hr hf).congr fun _ _ => behind_denoted_iff

/-- A value that does not hang on the input is computed in front of a reader. -/
theorem ofExceptBind {x : Except ε α} (hf : ∀ a, ExactToEnd (f a) (H a)) :
    ExactToEnd (Reader.ofExcept x >>= f) (fun bytes b => ∃ a, x = .ok a ∧ H a bytes b) := by
  apply (bind Exact.ofExcept hf).congr
  intro bytes b
  constructor
  · rintro ⟨a, _, back, ⟨rfl, hx⟩, hback, rfl⟩
    exact ⟨a, hx, hback⟩
  · rintro ⟨a, hx, hback⟩
    exact ⟨a, [], bytes, ⟨rfl, hx⟩, hback, rfl⟩

/-- A check in front of a reader narrows what the reader accepts. -/
theorem check {p : Prop} [Decidable p] {e : ε} {k : Unit → Reader ε α} (hk : ExactToEnd (k ()) G) :
    ExactToEnd (if p then Reader.fail e >>= k else k ()) (fun bytes a => ¬ p ∧ G bytes a) := by
  intro c a c'
  by_cases hp : p
  · simp [hp, Reader.bind_eq_ok_iff, Reader.fail]
  · simpa [hp] using hk c a c'

/-- Run from the start, such a reader succeeds exactly on the byte strings of its grammar. -/
theorem run_eq_ok_iff (hr : ExactToEnd r G) (bytes : Bytes) (a : α) :
    (∃ c, r.run bytes = .ok (a, c)) ↔ G bytes a := by
  constructor
  · rintro ⟨c, hc⟩
    exact ((hr _ a c).mp hc).1
  · intro h
    exact ⟨_, (hr ⟨0, bytes⟩ a _).mpr ⟨h, rfl⟩⟩

end ExactToEnd

theorem take_exact [EndOfInput ε] (n : Nat) :
    Exact (take n : Reader ε Bytes) (fun bytes a => bytes = a ∧ a.length = n) := by
  rintro ⟨offset, rest⟩ a ⟨offset', rest'⟩
  simp only [take]
  constructor
  · intro h
    split at h
    · rename_i hlen
      cases h
      exact ⟨rest.take n, ⟨rfl, hlen⟩, (List.take_append_drop n rest).symm, by rw [hlen]⟩
    · cases h
  · rintro ⟨bytes, ⟨rfl, hlen⟩, hrest, hoffset⟩
    subst hrest hlen hoffset
    simp

theorem byte_exact [EndOfInput ε] :
    Exact (byte : Reader ε UInt8) (fun bytes b => bytes = [b]) := by
  rintro ⟨offset, rest⟩ b ⟨offset', rest'⟩
  cases rest with
  | nil => simp [byte]
  | cons first rest =>
    simp only [byte]
    constructor
    · intro h
      cases h
      exact ⟨[b], rfl, rfl, rfl⟩
    · rintro ⟨bytes, rfl, hrest, hoffset⟩
      cases hrest
      subst hoffset
      rfl

/-- A word is read from exactly the form that its value is written in. -/
theorem word_exact [EndOfInput ε] (order : ByteOrder) (w : Nat) :
    Exact (word order w : Reader ε Nat)
      (Written (fun n => n < 256 ^ w) (Bytes.ofNat order w)) := by
  apply ((take_exact w).bind (fun bytes => Exact.pure (Bytes.toNat order bytes))).congr
  intro bytes n
  constructor
  · rintro ⟨a, front, back, ⟨rfl, hlen⟩, ⟨rfl, rfl⟩, rfl⟩
    refine ⟨?_, ?_⟩
    · simpa only [hlen] using Bytes.toNat_lt order front
    · have h := Bytes.ofNat_toNat order front
      rw [hlen] at h
      rw [h, List.append_nil]
  · rintro ⟨hn, rfl⟩
    refine ⟨Bytes.ofNat order w n, _, [], ⟨rfl, Bytes.length_ofNat order w n⟩, ⟨rfl, ?_⟩, ?_⟩
    · exact (Bytes.toNat_ofNat order w n hn).symm
    · rw [List.append_nil]

/-- Words of a fixed width as values of a type that holds exactly those numbers. -/
private theorem word_as_exact [EndOfInput ε] (order : ByteOrder) (w : Nat) {make : Nat → α}
    {value : α → Nat} (hvalue : ∀ a, value a < 256 ^ w) (hmake : ∀ n < 256 ^ w, value (make n) = n)
    (hback : ∀ a, make (value a) = a) :
    Exact (word order w >>= fun n => pure (make n) : Reader ε α)
      (Written (fun _ => True) (fun a => Bytes.ofNat order w (value a))) := by
  apply ((word_exact order w).bindWritten (fun n => Exact.pure (make n))).congr
  intro bytes a
  constructor
  · rintro ⟨n, back, hn, ⟨rfl, rfl⟩, rfl⟩
    refine ⟨trivial, ?_⟩
    change _ = Bytes.ofNat order w (value (make n))
    rw [hmake n hn, List.append_nil]
  · rintro ⟨-, rfl⟩
    exact ⟨value a, [], hvalue a, ⟨rfl, (hback a).symm⟩, (List.append_nil _).symm⟩

theorem word16_exact [EndOfInput ε] (order : ByteOrder) :
    Exact (word16 order : Reader ε UInt16)
      (Written (fun _ => True) (fun n => Bytes.ofNat order 2 n.toNat)) :=
  word_as_exact order 2 UInt16.toNat_lt (fun _ hn => UInt16.toNat_ofNat_of_lt' hn)
    (fun _ => UInt16.ofNat_toNat)

theorem word32_exact [EndOfInput ε] (order : ByteOrder) :
    Exact (word32 order : Reader ε UInt32)
      (Written (fun _ => True) (fun n => Bytes.ofNat order 4 n.toNat)) :=
  word_as_exact order 4 UInt32.toNat_lt (fun _ hn => UInt32.toNat_ofNat_of_lt' hn)
    (fun _ => UInt32.ofNat_toNat)

theorem word64_exact [EndOfInput ε] (order : ByteOrder) :
    Exact (word64 order : Reader ε UInt64)
      (Written (fun _ => True) (fun n => Bytes.ofNat order 8 n.toNat)) :=
  word_as_exact order 8 UInt64.toNat_lt (fun _ hn => UInt64.toNat_ofNat_of_lt' hn)
    (fun _ => UInt64.ofNat_toNat)

private theorem timesFrom_exact {G : Bytes → α → Prop} (hr : Exact r G) (n : Nat)
    (acc : List α) :
    Exact (timesFrom r acc n) (fun bytes as =>
      ∃ items, items.length = n ∧ Sequence G bytes items ∧ as = acc.reverse ++ items) := by
  induction n generalizing acc with
  | zero =>
    apply (Exact.pure acc.reverse).congr
    intro bytes as
    constructor
    · rintro ⟨rfl, rfl⟩
      exact ⟨[], rfl, .nil, (List.append_nil _).symm⟩
    · rintro ⟨items, hlen, hseq, rfl⟩
      obtain rfl := List.length_eq_zero_iff.mp hlen
      cases hseq
      exact ⟨rfl, List.append_nil _⟩
  | succ n ih =>
    apply (hr.bind (fun a => ih (a :: acc))).congr
    intro bytes as
    constructor
    · rintro ⟨a, front, back, hfront, ⟨items, hlen, hseq, rfl⟩, rfl⟩
      exact ⟨a :: items, by simp [hlen], .cons hfront hseq, by simp⟩
    · rintro ⟨items, hlen, hseq, rfl⟩
      cases hseq with
      | nil => simp at hlen
      | @cons front back a items head tail =>
        exact ⟨a, front, back, head, ⟨items, by simpa using hlen, tail, by simp⟩, rfl⟩

theorem times_exact {G : Bytes → α → Prop} (hr : Exact r G) (n : Nat) :
    Exact (times n r) (fun bytes as => as.length = n ∧ Sequence G bytes as) := by
  apply (timesFrom_exact hr n []).congr
  intro bytes as
  simp

end LiveDex.Reader
