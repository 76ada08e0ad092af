import LiveDex.Proofs.Reading

/-!
Readers with more input. A steady reader takes no notice of bytes that it has no use for: with
more input it ends as it did before, unless it had come to the end of the input. Steadiness goes
through sequencing and repetition, so that it is proved once for each part of a format. On fewer
bytes than it reads, such a reader comes to the end of the input. A reader that must use up the
input reports the bytes behind its end as trailing.
-/
namespace LiveDex

/-- The cursor with more bytes behind the rest. -/
def Cursor.extend (c : Cursor) (more : Bytes) : Cursor :=
  ⟨c.offset, c.rest ++ more⟩

namespace Reader

variable {ε α β : Type} [EndOfInput ε] {r : Reader ε α} {f : α → Reader ε β}

/-- With more input, the reader returns what it returned and leaves the new bytes behind what it
left, or fails as it failed, unless it had come to the end of the input. -/
def Steady (r : Reader ε α) : Prop :=
  ∀ c more, (∃ offset, r c = .error (EndOfInput.endedAt offset)) ∨
    r (c.extend more) = (r c).map fun (a, c') => (a, c'.extend more)

namespace Steady

theorem pure (a : α) : Steady (Pure.pure a : Reader ε α) :=
  fun _ _ => Or.inr rfl

theorem fail (e : ε) : Steady (Reader.fail e : Reader ε α) :=
  fun _ _ => Or.inr rfl

theorem ofExcept (x : Except ε α) : Steady (Reader.ofExcept x) := by
  intro c more
  cases x with
  | error e => exact Or.inr rfl
  | ok a => exact Or.inr rfl

/-- Of a sequence with more input, the first part had ended too early, or fails as it
failed, or hands over the same value. -/
theorem sequence (hr : Steady r) (f : α → Reader ε β) (c : Cursor) (more : Bytes) :
    (∃ offset, (r >>= f) c = .error (EndOfInput.endedAt offset)) ∨
    (∃ e, (r >>= f) c = .error e ∧ (r >>= f) (c.extend more) = .error e) ∨
    ∃ a c', (r >>= f) c = f a c' ∧ (r >>= f) (c.extend more) = f a (c'.extend more) := by
  simp only [Bind.bind, Reader.bind]
  rcases hr c more with ⟨offset, hended⟩ | hsame
  · exact Or.inl ⟨offset, by rw [hended]⟩
  · rw [hsame]
    cases r c with
    | error e => exact Or.inr (Or.inl ⟨e, rfl, rfl⟩)
    | ok x =>
      obtain ⟨a, c'⟩ := x
      exact Or.inr (Or.inr ⟨a, c', rfl, rfl⟩)

theorem bind (hr : Steady r) (hf : ∀ a, Steady (f a)) : Steady (r >>= f) := by
  intro c more
  rcases hr.sequence f c more with hended | ⟨e, hshort, hlong⟩ | ⟨a, c', hshort, hlong⟩
  · exact Or.inl hended
  · rw [hshort, hlong]
    exact Or.inr rfl
  · rw [hshort, hlong]
    exact hf a c' more

theorem ite {p : Prop} [Decidable p] {r' : Reader ε α} (hr : Steady r) (hr' : Steady r') :
    Steady (if p then r else r') := by
  by_cases hp : p
  · rwa [if_pos hp]
  · rwa [if_neg hp]

/-- A check in front of a reader. -/
theorem check {p : Prop} [Decidable p] {e : ε} {k : Unit → Reader ε α} (hk : Steady (k ())) :
    Steady (if p then Reader.fail e >>= k else k ()) := by
  by_cases hp : p
  · rw [if_pos hp]
    exact fun _ _ => Or.inr rfl
  · rwa [if_neg hp]

theorem take (n : ℕ) : Steady (Reader.take n : Reader ε Bytes) := by
  rintro ⟨offset, rest⟩ more
  by_cases hlength : n ≤ rest.length
  · refine Or.inr ?_
    simp [Reader.take, Cursor.extend, Except.map, hlength,
      List.take_append_of_le_length hlength, List.drop_append_of_le_length hlength]
  · refine Or.inl ⟨offset, ?_⟩
    have hshort : ¬ (rest.take n).length = n := by
      rw [List.length_take]
      omega
    simp only [Reader.take, hshort, if_false]

theorem byte : Steady (Reader.byte : Reader ε UInt8) := by
  rintro ⟨offset, rest⟩ more
  cases rest with
  | nil => exact Or.inl ⟨offset, rfl⟩
  | cons b rest => exact Or.inr rfl

theorem word (order : ByteOrder) (w : ℕ) : Steady (Reader.word order w : Reader ε ℕ) :=
  (take w).bind fun _ => pure _

theorem word16 (order : ByteOrder) : Steady (Reader.word16 order : Reader ε UInt16) :=
  (word order 2).bind fun _ => pure _

theorem word32 (order : ByteOrder) : Steady (Reader.word32 order : Reader ε UInt32) :=
  (word order 4).bind fun _ => pure _

theorem word64 (order : ByteOrder) : Steady (Reader.word64 order : Reader ε UInt64) :=
  (word order 8).bind fun _ => pure _

theorem timesFrom (hr : Steady r) (acc : List α) (n : ℕ) : Steady (Reader.timesFrom r acc n) := by
  induction n generalizing acc with
  | zero => exact pure acc.reverse
  | succ n ih => exact hr.bind fun a => ih (a :: acc)

theorem times (hr : Steady r) (n : ℕ) : Steady (Reader.times n r) :=
  hr.timesFrom [] n

/-- On fewer bytes than it reads, a steady reader comes to the end of the input. -/
theorem ends_early {G : Bytes → α → Prop} (hr : Steady r) (hexact : Exact r G) {c c' : Cursor}
    {a : α} (h : r c = .ok (a, c')) {n : ℕ} (hn : c.offset + n < c'.offset) :
    ∃ offset, r ⟨c.offset, c.rest.take n⟩ = .error (EndOfInput.endedAt offset) := by
  have hwhole : Cursor.extend ⟨c.offset, c.rest.take n⟩ (c.rest.drop n) = c := by
    simp [Cursor.extend]
  rcases hr ⟨c.offset, c.rest.take n⟩ (c.rest.drop n) with hended | hsame
  · exact hended
  · rw [hwhole, h] at hsame
    cases hshort : r ⟨c.offset, c.rest.take n⟩ with
    | error e =>
      rw [hshort] at hsame
      cases hsame
    | ok x =>
      -- A success on the shorter input would stop at the same offset, behind its end.
      obtain ⟨a', stop⟩ := x
      rw [hshort] at hsame
      obtain ⟨front, -, hrest, hoffset⟩ := (hexact _ _ _).mp hshort
      have hstop : c'.offset = stop.offset := by
        have hpair := Except.ok.inj hsame
        exact congrArg (fun y => y.2.offset) hpair
      have hlength := congrArg List.length hrest
      simp only [List.length_append, List.length_take] at hlength hoffset
      omega

end Steady

/-- The reader must use up the input: with more input it fails where it had ended, and reports the
bytes behind that place as trailing. -/
def SteadyToEnd (trailing : ℕ → ε) (r : Reader ε α) : Prop :=
  ∀ c more, more ≠ [] → (∃ offset, r c = .error (EndOfInput.endedAt offset)) ∨
    r (c.extend more) = (r c).bind fun (_, c') => .error (trailing c'.offset)

namespace SteadyToEnd

variable {trailing : ℕ → ε}

theorem bind (hr : Steady r) (hf : ∀ a, SteadyToEnd trailing (f a)) :
    SteadyToEnd trailing (r >>= f) := by
  intro c more hmore
  rcases hr.sequence f c more with hended | ⟨e, hshort, hlong⟩ | ⟨a, c', hshort, hlong⟩
  · exact Or.inl hended
  · rw [hshort, hlong]
    exact Or.inr rfl
  · rw [hshort, hlong]
    exact hf a c' more hmore

/-- A check in front of a reader. -/
theorem check {p : Prop} [Decidable p] {e : ε} {k : Unit → Reader ε α}
    (hk : SteadyToEnd trailing (k ())) :
    SteadyToEnd trailing (if p then Reader.fail e >>= k else k ()) := by
  by_cases hp : p
  · rw [if_pos hp]
    exact fun _ _ _ => Or.inr rfl
  · rwa [if_neg hp]

/-- A reader that returns a value if nothing is left of the input. -/
theorem finish (a : α) {k : Unit → Reader ε α} :
    SteadyToEnd trailing (do
      if (← atEnd) then Pure.pure a else
        let offset ← Reader.offset
        Reader.fail (trailing offset) >>= k) := by
  rintro ⟨offset, rest⟩ more hmore
  refine Or.inr ?_
  obtain ⟨b, more, rfl⟩ := List.exists_cons_of_ne_nil hmore
  cases rest with
  | nil => rfl
  | cons b rest => rfl

end SteadyToEnd

end Reader

end LiveDex
