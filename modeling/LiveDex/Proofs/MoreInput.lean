import LiveDex.Proofs.ClassFileFormat
import LiveDex.Proofs.Steadiness

/-!
Class files with more bytes behind them. All of a class file but the check that nothing is left is
read by steady readers. So bytes that were rejected stay rejected for the same reason, and bytes
that were accepted are followed by trailing ones.
-/
namespace LiveDex

namespace ClassFile

open Reader

theorem Constant.readBody_steady (kind : Kind) : Steady (Constant.readBody kind) := by
  cases kind with
  | utf8 => exact (Steady.word16 _).bind fun _ => (Steady.take _).bind fun _ => .pure _
  | integer | float => exact (Steady.word32 _).bind fun _ => .pure _
  | long | double => exact (Steady.word64 _).bind fun _ => .pure _
  | classRef | stringRef | methodType | moduleRef | packageRef =>
    exact (Steady.word16 _).bind fun _ => .pure _
  | fieldRef | methodRef | interfaceMethodRef | nameAndType | dynamic | invokeDynamic =>
    exact (Steady.word16 _).bind fun _ => (Steady.word16 _).bind fun _ => .pure _
  | methodHandle => exact Steady.byte.bind fun _ => (Steady.word16 _).bind fun _ => .pure _

theorem Constant.read_steady (index : UInt16) : Steady (Constant.read index) := by
  refine Steady.byte.bind fun tag => ?_
  cases Kind.ofTag? tag with
  | none => exact .fail _
  | some kind =>
    refine (readBody_steady kind).bind fun raw => ?_
    cases raw.mapText? Text.ofClassFileBytes? with
    | none => exact .fail _
    | some c => exact .pure c

namespace Pool

theorem readFrom_steady (count : ℕ) (index : UInt16) (slots : Array (Option (Constant String))) :
    Steady (readFrom count index slots) := by
  induction count using Nat.strong_induction_on generalizing index slots with
  | _ count ih =>
    cases count with
    | zero => exact .pure _
    | succ remaining =>
      rw [readFrom_succ]
      refine (Constant.read_steady index).bind fun c => ?_
      unfold readBehind
      refine .ite ?_ (ih remaining (by omega) _ _)
      cases remaining with
      | zero => exact .fail _
      | succ remaining => exact ih remaining (by omega) _ _

theorem read_steady : Steady Pool.read :=
  (Steady.word16 _).bind fun count => readFrom_steady (count.toNat - 1) 1 #[none]

end Pool

section Parts

variable (pool : Pool)

theorem readName_steady (lookup : UInt16 → Except Error String) : Steady (readName lookup) :=
  (Steady.word16 _).bind fun _ => .ofExcept _

/-- A count and as many items. -/
theorem counted_steady {α : Type} {item : Reader Error α} (hitem : Steady item) :
    Steady (do let count ← .word16 .big; .times count.toNat item : Reader Error (List α)) :=
  (Steady.word16 _).bind fun count => hitem.times count.toNat

theorem readAttributes_steady : Steady (readAttributes pool) := by
  refine counted_steady ((Steady.word16 _).bind fun _ => (Steady.ofExcept _).bind fun _ => ?_)
  exact (Steady.word32 _).bind fun _ => (Steady.take _).bind fun _ => .pure _

/-- The code of a member is read from the bytes of its attribute, which are there already. -/
theorem readMembers_steady : Steady (readMembers pool) := by
  refine counted_steady ((Steady.word16 _).bind fun _ => ?_)
  refine (Steady.word16 _).bind fun _ => (Steady.ofExcept _).bind fun _ => ?_
  refine (Steady.word16 _).bind fun _ => (Steady.ofExcept _).bind fun _ => ?_
  exact (readAttributes_steady pool).bind fun _ => (Steady.ofExcept _).bind fun _ => .pure _

theorem readSuperClass_steady : Steady (readSuperClass pool) :=
  (Steady.word16 _).bind fun _ => .ite (.pure _) ((Steady.ofExcept _).bind fun _ => .pure _)

theorem readInterfaces_steady : Steady (readInterfaces pool) :=
  counted_steady (readName_steady pool.className)

end Parts

theorem readSoundPool_steady : Steady readSoundPool :=
  Pool.read_steady.bind fun _ => (Steady.ofExcept _).bind fun _ => .pure _

theorem read_steady : SteadyToEnd Error.trailingBytes read := by
  rw [read_eq]
  refine .bind (Steady.word32 _) fun found => .check ?_
  refine .bind (Steady.word16 _) fun minorVersion => .bind (Steady.word16 _) fun majorVersion => ?_
  refine .bind readSoundPool_steady fun pool => .bind (Steady.word16 _) fun accessFlags => ?_
  refine .bind (readName_steady _) fun thisClass => ?_
  refine .bind (readSuperClass_steady pool) fun superClass => ?_
  refine .bind (readInterfaces_steady pool) fun interfaces => ?_
  refine .bind (readMembers_steady pool) fun fields => ?_
  refine .bind (readMembers_steady pool) fun methods => ?_
  refine .bind (readAttributes_steady pool) fun attributes => ?_
  exact .bind (Steady.ofExcept _) fun sourceFile => .finish _

/-- A byte string and a longer one: the shorter ends too early, or both are rejected for the same
reason, or the shorter is a class file and the rest of the longer is trailing. -/
theorem parse_append (bytes : Bytes) {more : Bytes} (hmore : more ≠ []) :
    (∃ offset, parse bytes = .error (.endOfInput offset)) ∨
    (∃ e, parse bytes = .error e ∧ parse (bytes ++ more) = .error e) ∨
    ∃ file, parse bytes = .ok file ∧
      parse (bytes ++ more) = .error (.trailingBytes bytes.length) := by
  have hrun : read.run (bytes ++ more) = read (Cursor.extend ⟨0, bytes⟩ more) := rfl
  rcases read_steady ⟨0, bytes⟩ more hmore with ⟨offset, hended⟩ | hsame
  · refine Or.inl ⟨offset, ?_⟩
    simp only [parse, Reader.run, hended]
    rfl
  · refine Or.inr ?_
    cases hread : read ⟨0, bytes⟩ with
    | error e =>
      refine Or.inl ⟨e, ?_, ?_⟩
      · simp only [parse, Reader.run, hread]
      · simp only [parse, hrun, hsame, hread, Except.bind]
    | ok x =>
      obtain ⟨file, c⟩ := x
      obtain ⟨-, hend⟩ := (read_exact ⟨0, bytes⟩ file c).mp hread
      refine Or.inr ⟨file, ?_, ?_⟩
      · simp only [parse, Reader.run, hread]
      · simp only [parse, hrun, hsame, hread, Except.bind, hend, Nat.zero_add]

/-- What was rejected before the input ended stays rejected for the same reason, a class file is
followed by trailing bytes, and what stands in front of the end of a class file ends too early. So
no class file begins with another. -/
theorem parse_decided_by_bytes_read (bytes more : Bytes) (hmore : more ≠ []) :
    (∀ e, parse bytes = .error e → (∀ offset, e ≠ .endOfInput offset) →
      parse (bytes ++ more) = .error e) ∧
    (∀ file, parse bytes = .ok file →
      parse (bytes ++ more) = .error (.trailingBytes bytes.length)) ∧
    (∀ file, parse (bytes ++ more) = .ok file →
      ∃ offset, parse bytes = .error (.endOfInput offset)) ∧
    ∀ file file', parse bytes = .ok file → parse (bytes ++ more) ≠ .ok file' := by
  rcases parse_append bytes hmore with ⟨offset, hended⟩ | ⟨e, hshort, hlong⟩ | ⟨file, hshort, hlong⟩
  · simp [hended]
  · simp [hshort, hlong]
  · simp [hshort, hlong]

/-- A class without a superclass and without members. -/
def bareFile : Bytes :=
  [202, 254, 186, 190, 0, 0, 0, 52, 0, 3, 1, 0, 1, 67, 7, 0, 1, 0, 33, 0, 2, 0, 0, 0, 0, 0, 0, 0, 0,
    0, 0]

theorem parse_decided_by_bareFile :
    (∃ file, parse bareFile = .ok file) ∧
    parse (bareFile ++ [0]) = .error (.trailingBytes 31) ∧
    (∃ offset, parse (bareFile.take 20) = .error (.endOfInput offset)) ∧
    parse (bareFile.take 14 ++ [2] ++ bareFile.drop 15) = .error (.invalidTag 2 2) := by
  have hbare : (parse bareFile).toBool = true := by decide +kernel
  have htag : parse (bareFile.take 14 ++ [2]) = .error (.invalidTag 2 2) := by decide +kernel
  cases hfile : parse bareFile with
  | error e => simp [hfile, Except.toBool] at hbare
  | ok file =>
    obtain ⟨-, htrailing, -⟩ := parse_decided_by_bytes_read bareFile [0] (by decide)
    obtain ⟨-, -, hcut, -⟩ :=
      parse_decided_by_bytes_read (bareFile.take 20) (bareFile.drop 20) (by decide)
    obtain ⟨hsame, -⟩ := parse_decided_by_bytes_read (bareFile.take 14 ++ [2]) (bareFile.drop 15)
      (by decide)
    rw [List.take_append_drop] at hcut
    exact ⟨⟨file, rfl⟩, htrailing file hfile, hcut file hfile, hsame _ htag (by simp)⟩

end ClassFile

end LiveDex
