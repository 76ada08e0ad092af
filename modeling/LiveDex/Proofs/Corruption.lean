import LiveDex.Proofs.ContainerFormat
import LiveDex.Proofs.Steadiness

/-!
Damaged containers. The first 32 bytes of a container, its lead, give the dialect, the signature
and the size of the file. Size and signature are compared with the whole file as soon as the lead is
read. So a container that was cut short or went on is told by its size, and one with other bytes
behind the lead by its signature, unless the two signed parts are a collision of the digest.
-/
namespace LiveDex

/-- Different byte strings with the same digest. -/
def Digest.Collision (first second : Bytes) : Prop :=
  first ≠ second ∧ sha1 first = sha1 second

namespace Container

open Reader

/-- What a container says of itself in front of the flags. -/
structure Lead where
  dialect : Dialect
  signature : Bytes
  declared : UInt32

namespace Lead

def layout (lead : Lead) : Bytes :=
  lead.dialect.magic ++ lead.signature ++ word32 lead.declared

def read : Reader DecodeError Lead := do
  let dialect ← readDialect
  let signature ← .take signatureLength
  let declared ← .word32 .little
  return ⟨dialect, signature, declared⟩

/-- The rest of the header, for a file of the given bytes. -/
def check (bytes : Bytes) (lead : Lead) : Reader DecodeError Dialect := do
  if lead.declared.toNat ≠ bytes.length then .fail (.fileSize lead.declared bytes.length)
  if Digest.sha1 (bytes.drop (lead.dialect.magic.length + signatureLength)) ≠ lead.signature then
    .fail .signature
  let flags ← .word16 .little
  if flags ≠ plainFlags then .fail (.unsupportedFlags flags)
  return lead.dialect

theorem length_layout {lead : Lead} (hsignature : lead.signature.length = signatureLength) :
    lead.layout.length = 32 := by
  simp only [layout, List.length_append, length_magic, length_word32, hsignature, signatureLength]

theorem read_exact : Exact Lead.read
    (Written (fun lead => lead.signature.length = signatureLength) Lead.layout) := by
  apply (dialect_exact.bindWritten (fun dialect => (take_exact signatureLength).bind
    (fun signature => (word32_exact .little).bindWritten (fun declared =>
      Exact.pure (Lead.mk dialect signature declared))))).congr
  intro bytes lead
  constructor
  · rintro ⟨dialect, _, -, ⟨signature, _, _, ⟨rfl, hlength⟩, ⟨declared, _, -, ⟨rfl, rfl⟩, rfl⟩,
      rfl⟩, rfl⟩
    exact ⟨hlength, by simp [layout, word32]⟩
  · rintro ⟨hlength, rfl⟩
    exact ⟨lead.dialect, _, trivial, ⟨lead.signature, _, _, ⟨rfl, hlength⟩,
      ⟨lead.declared, [], trivial, ⟨rfl, rfl⟩, rfl⟩, rfl⟩, by simp [layout, word32]⟩

theorem read_steady : Steady Lead.read := by
  have hdialect : Steady readDialect := by
    refine (Steady.take 4).bind fun mark => .check ((Steady.take 4).bind fun version => ?_)
    cases Dialect.ofVersionBytes? version with
    | some dialect => exact .pure dialect
    | none => exact .fail _
  exact hdialect.bind fun _ => (Steady.take _).bind fun _ => (Steady.word32 _).bind fun _ => .pure _

end Lead

theorem readHeader_eq (bytes : Bytes) : readHeader bytes = Lead.read >>= Lead.check bytes := by
  simp only [readHeader, Lead.read, bind_bind]
  rfl

/-- A fault in the header is what the whole file is rejected for. -/
theorem decode_of_readHeader {bytes : Bytes} {e : DecodeError}
    (h : (readHeader bytes).run bytes = .error e) : Tables.decode bytes = .error e := by
  have hread : (Tables.read bytes).run bytes = .error e := bind_of_error h _
  rw [Tables.decode, hread]

section Leads

variable {lead : Lead} (hsignature : lead.signature.length = signatureLength)
include hsignature

theorem read_lead (rest : Bytes) :
    Lead.read ⟨0, lead.layout ++ rest⟩ = .ok (lead, ⟨32, rest⟩) := by
  apply (Lead.read_exact _ _ _).mpr
  refine ⟨lead.layout, ⟨hsignature, rfl⟩, rfl, ?_⟩
  rw [Lead.length_layout hsignature]

theorem readHeader_of_lead (rest : Bytes) :
    (readHeader (lead.layout ++ rest)).run (lead.layout ++ rest) =
      lead.check (lead.layout ++ rest) ⟨32, rest⟩ := by
  rw [readHeader_eq]
  exact bind_of_ok (read_lead hsignature rest) _

/-- A whole lead that gives another size than the file has. -/
theorem decode_of_size {rest : Bytes} (hsize : lead.declared.toNat ≠ 32 + rest.length) :
    Tables.decode (lead.layout ++ rest) = .error (.fileSize lead.declared (32 + rest.length)) := by
  have hlength : (lead.layout ++ rest).length = 32 + rest.length := by
    rw [List.length_append, Lead.length_layout hsignature]
  apply decode_of_readHeader
  rw [readHeader_of_lead hsignature, Lead.check, hlength, if_pos hsize]
  rfl

/-- A whole lead that gives the size of the file, and signs something else. -/
theorem decode_of_signature {rest : Bytes} (hsize : lead.declared.toNat = 32 + rest.length)
    (hdigest : Digest.sha1 ((lead.layout ++ rest).drop 28) ≠ lead.signature) :
    Tables.decode (lead.layout ++ rest) = .error .signature := by
  have hlength : (lead.layout ++ rest).length = 32 + rest.length := by
    rw [List.length_append, Lead.length_layout hsignature]
  have hcovered : lead.dialect.magic.length + signatureLength = 28 := by
    rw [length_magic, signatureLength]
  apply decode_of_readHeader
  rw [readHeader_of_lead hsignature, Lead.check, hlength, hcovered, if_neg (not_not.mpr hsize),
    if_pos hdigest]
  rfl

/-- A lead that is not whole. -/
theorem decode_of_short {n : ℕ} (hn : n < 32) (rest : Bytes) :
    Tables.decode ((lead.layout ++ rest).take n) = .error .endOfInput := by
  obtain ⟨_, hshort⟩ := Lead.read_steady.ends_early Lead.read_exact (read_lead hsignature rest)
    (show 0 + n < 32 by omega)
  apply decode_of_readHeader
  rw [readHeader_eq]
  exact bind_of_error hshort _

end Leads

/-- The container begins with the lead, which gives its size and signs what is behind the
signature. -/
structure Lead.Heads (lead : Lead) (bytes rest : Bytes) : Prop where
  bytes_eq : bytes = lead.layout ++ rest
  signature_eq : lead.signature = Digest.sha1 (bytes.drop 28)
  declared_eq : lead.declared.toNat = bytes.length

theorem exists_heads_of_decode {bytes : Bytes} {tables : Tables}
    (h : Tables.decode bytes = .ok tables) : ∃ lead rest, Lead.Heads lead bytes rest := by
  obtain ⟨-, hbytes⟩ := (decode_eq_ok_iff tables bytes).mp h
  have hsmall := length_lt_of_decode h
  have hlength : bytes.length = headerLength + tables.layout.length := by
    rw [hbytes, length_sealed]
  have hsigned : bytes.drop 28 = signedPart tables.layout := by
    rw [hbytes, drop_sealed]
  refine ⟨⟨tables.dialect, Digest.sha1 (bytes.drop 28), bytes.length.toUInt32⟩,
    word16 plainFlags ++ tables.layout, ?_, rfl, ?_⟩
  · calc bytes = sealed tables.dialect (signedPart tables.layout) := hbytes
      _ = _ := by
        rw [Lead.layout, hsigned, word32_ofNat _ hsmall, hlength]
        simp only [sealed, signedPart, List.append_assoc]
  · rw [Nat.toUInt32_eq, UInt32.toNat_ofNat_of_lt' hsmall]

namespace Lead.Heads

variable {lead : Lead} {bytes rest : Bytes} (hlead : lead.Heads bytes rest)
include hlead

theorem length_signature : lead.signature.length = signatureLength := by
  rw [hlead.signature_eq, Digest.length_sha1, signatureLength]

theorem length_eq : bytes.length = 32 + rest.length := by
  rw [hlead.bytes_eq, List.length_append, Lead.length_layout hlead.length_signature]

theorem take_eq : bytes.take 32 = lead.layout := by
  rw [hlead.bytes_eq, List.take_left' (Lead.length_layout hlead.length_signature)]

theorem signature_bytes : (bytes.drop 8).take 20 = lead.signature := by
  have hdrop : bytes.drop 8 = lead.signature ++ (word32 lead.declared ++ rest) := by
    rw [hlead.bytes_eq, Lead.layout, List.append_assoc, List.append_assoc,
      List.drop_left' (length_magic _)]
  rw [hdrop]
  exact List.take_left' hlead.length_signature

/-- Cut short, the file ends in its lead or has another size than the lead gives. -/
theorem decode_take {n : ℕ} (hn : n < bytes.length) :
    Tables.decode (bytes.take n) =
      .error (if n < 32 then .endOfInput else .fileSize lead.declared n) := by
  have hsignature := hlead.length_signature
  have hlayout := Lead.length_layout hsignature
  have hlength := hlead.length_eq
  have hdeclared := hlead.declared_eq
  by_cases hshort : n < 32
  · rw [if_pos hshort, hlead.bytes_eq]
    exact decode_of_short hsignature hshort rest
  · have hcut : bytes.take n = lead.layout ++ rest.take (n - 32) := by
      rw [hlead.bytes_eq, List.take_append, hlayout, List.take_of_length_le (by omega)]
    have hrest : 32 + (rest.take (n - 32)).length = n := by
      rw [List.length_take]
      omega
    rw [if_neg hshort, hcut, decode_of_size hsignature (by omega), hrest]

theorem decode_append {more : Bytes} (hmore : more ≠ []) :
    Tables.decode (bytes ++ more) =
      .error (.fileSize lead.declared (bytes.length + more.length)) := by
  have hpositive : 0 < more.length := List.length_pos_iff.mpr hmore
  have hlength := hlead.length_eq
  have hdeclared := hlead.declared_eq
  have hrest : 32 + (rest ++ more).length = bytes.length + more.length := by
    rw [List.length_append]
    omega
  rw [← hrest, hlead.bytes_eq, List.append_assoc]
  exact decode_of_size hlead.length_signature (by omega)

/-- With other bytes behind the lead, the size is right, and the signature is checked next. -/
theorem decode_changed {other : Bytes} (hsize : other.length = bytes.length)
    (hfront : other.take 32 = bytes.take 32) (hne : other ≠ bytes) :
    Tables.decode other = .error .signature ∨
      Digest.Collision (bytes.drop 28) (other.drop 28) := by
  by_cases hdigest : Digest.sha1 (other.drop 28) = lead.signature
  · refine Or.inr ⟨?_, by rw [hdigest, hlead.signature_eq]⟩
    intro hpart
    apply hne
    have hbefore : other.take 28 = bytes.take 28 := by
      simpa [List.take_take] using congrArg (List.take 28) hfront
    rw [← List.take_append_drop 28 other, hbefore, ← hpart, List.take_append_drop]
  · have hother : other = lead.layout ++ other.drop 32 := by
      rw [← hlead.take_eq, ← hfront, List.take_append_drop]
    have hrest : lead.declared.toNat = 32 + (other.drop 32).length := by
      rw [hlead.declared_eq, List.length_drop, hlead.length_eq, hsize, hlead.length_eq]
      omega
    rw [hother] at hdigest ⊢
    exact Or.inl (decode_of_signature hlead.length_signature hrest hdigest)

end Lead.Heads

/-- The tables of containers with the same signed part differ in the dialect alone. -/
theorem eq_of_signed_eq {bytes other : Bytes} {tables tables' : Tables}
    (h : Tables.decode bytes = .ok tables) (hother : Tables.decode other = .ok tables')
    (hsigned : other.drop 28 = bytes.drop 28) :
    tables' = { tables with dialect := tables'.dialect } := by
  obtain ⟨hsize, rfl⟩ := (decode_eq_ok_iff tables bytes).mp h
  obtain ⟨-, rfl⟩ := (decode_eq_ok_iff tables' other).mp hother
  rw [drop_sealed, drop_sealed] at hsigned
  have hmoved : Tables.decode (sealed tables'.dialect (signedPart tables'.layout)) =
      .ok { tables with dialect := tables'.dialect } := by
    apply (decode_eq_ok_iff _ _).mpr
    rw [hsigned]
    exact ⟨hsize, rfl⟩
  exact Except.ok.inj (hother.symm.trans hmoved)

/-- A signature belongs to one signed part, and so to one container of each dialect. -/
theorem signed_eq_or_collision {bytes other : Bytes} {tables tables' : Tables}
    (h : Tables.decode bytes = .ok tables) (hother : Tables.decode other = .ok tables')
    (hsignature : (other.drop 8).take 20 = (bytes.drop 8).take 20) :
    (other.drop 8 = bytes.drop 8 ∧ tables' = { tables with dialect := tables'.dialect }) ∨
      Digest.Collision (bytes.drop 28) (other.drop 28) := by
  obtain ⟨lead, rest, hlead⟩ := exists_heads_of_decode h
  obtain ⟨lead', rest', hlead'⟩ := exists_heads_of_decode hother
  have hdigest : Digest.sha1 (bytes.drop 28) = Digest.sha1 (other.drop 28) := by
    rw [← hlead.signature_eq, ← hlead'.signature_eq, ← hlead.signature_bytes,
      ← hlead'.signature_bytes, hsignature]
  by_cases hpart : other.drop 28 = bytes.drop 28
  · refine Or.inl ⟨?_, eq_of_signed_eq h hother hpart⟩
    have hsplit (b : Bytes) : b.drop 8 = (b.drop 8).take 20 ++ b.drop 28 := by
      have hwhole := List.take_append_drop 20 (b.drop 8)
      rw [List.drop_drop] at hwhole
      exact hwhole.symm
    rw [hsplit other, hsignature, hpart, ← hsplit bytes]
  · exact Or.inr ⟨Ne.symm hpart, hdigest⟩

/-- A container that is cut short ends in its lead or has another size than it says, and one that
goes on has another size too. Other bytes behind the lead are told by the signature, and a signature
belongs to one signed part, unless there is a collision of the digest. -/
theorem decode_detects_corruption (bytes : Bytes) (tables : Tables)
    (h : Tables.decode bytes = .ok tables) :
    (∃ declared : UInt32, declared.toNat = bytes.length ∧
      (∀ n < bytes.length, Tables.decode (bytes.take n) =
        .error (if n < 32 then .endOfInput else .fileSize declared n)) ∧
      ∀ more, more ≠ [] → Tables.decode (bytes ++ more) =
        .error (.fileSize declared (bytes.length + more.length))) ∧
    (∀ other, other.length = bytes.length → other.take 32 = bytes.take 32 → other ≠ bytes →
      Tables.decode other = .error .signature ∨
        Digest.Collision (bytes.drop 28) (other.drop 28)) ∧
    ∀ other tables', Tables.decode other = .ok tables' →
      (other.drop 8).take 20 = (bytes.drop 8).take 20 →
      (other.drop 8 = bytes.drop 8 ∧ tables' = { tables with dialect := tables'.dialect }) ∨
        Digest.Collision (bytes.drop 28) (other.drop 28) := by
  obtain ⟨lead, rest, hlead⟩ := exists_heads_of_decode h
  refine ⟨⟨lead.declared, hlead.declared_eq, ?_, ?_⟩, ?_, ?_⟩
  · intro n hn
    exact hlead.decode_take hn
  · intro more hmore
    exact hlead.decode_append hmore
  · intro other hsize hfront hne
    exact hlead.decode_changed hsize hfront hne
  · intro other tables' hother hsignature
    exact signed_eq_or_collision h hother hsignature

/-- The container of a bundle without classes, under the given version. -/
def emptyContainer (version : UInt8) : Bytes :=
  [100, 101, 120, 10, 48, 51, version, 0, 229, 37, 102, 94, 247, 132, 134, 97, 199, 119, 46, 233,
    158, 123, 73, 226, 227, 35, 31, 120, 46, 0, 0, 0, 0, 0, 0, 0, 0, 0, 0, 0, 0, 0, 0, 0, 0, 0]

theorem decode_detects_corrupt_emptyContainer :
    Tables.decode (emptyContainer 53) = .ok ⟨.v035, #[], #[], []⟩ ∧
    Tables.decode ((emptyContainer 53).take 31) = .error .endOfInput ∧
    Tables.decode ((emptyContainer 53).take 32) = .error (.fileSize 46 32) ∧
    Tables.decode (emptyContainer 53 ++ [0]) = .error (.fileSize 46 47) ∧
    Tables.decode ((emptyContainer 53).set 45 1) = .error .signature ∧
    Tables.decode (emptyContainer 55) = .ok ⟨.v037, #[], #[], []⟩ ∧
    (emptyContainer 55).drop 8 = (emptyContainer 53).drop 8 := by
  have hdecode : Tables.decode (emptyContainer 53) = .ok ⟨.v035, #[], #[], []⟩ := by decide +kernel
  have hother : Tables.decode (emptyContainer 55) = .ok ⟨.v037, #[], #[], []⟩ := by decide +kernel
  obtain ⟨⟨declared, hdeclared, hcut, hmore⟩, hchanged, hsame⟩ :=
    decode_detects_corruption _ _ hdecode
  obtain rfl : declared = 46 := UInt32.toNat_inj.mp hdeclared
  refine ⟨hdecode, hcut 31 (by decide), hcut 32 (by decide), hmore [0] (by decide), ?_, hother, ?_⟩
  · apply (hchanged ((emptyContainer 53).set 45 1) rfl rfl (by decide)).resolve_right
    unfold Digest.Collision
    decide +kernel
  · exact ((hsame _ _ hother rfl).resolve_right fun hcollision => hcollision.1 rfl).1

end Container

end LiveDex
