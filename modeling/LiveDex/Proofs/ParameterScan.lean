import LiveDex.Descriptor.Scan
import LiveDex.Proofs.MethodDescriptor

/-!
The scan of parameters meets no fault. Between its steps the offset is the number of bytes of some
characters in front, so the bytes it reads are first bytes of characters and its cuts lie between
characters; every step passes over one type at least one byte long. What the scan counts is what
the types of the descriptor take.
-/
namespace LiveDex.Descriptor.Scan

section Offsets

theorem utf8_cons (c : Char) (chars : List Char) :
    utf8 (c :: chars) = String.utf8EncodeChar c ++ utf8 chars := rfl

theorem utf8_append (front back : List Char) :
    utf8 (front ++ back) = utf8 front ++ utf8 back :=
  List.flatMap_append

theorem length_le_length_utf8 (chars : List Char) : chars.length ≤ (utf8 chars).length := by
  induction chars with
  | nil => rfl
  | cons c chars ih =>
    have hsize := c.utf8Size_pos
    simp only [utf8_cons, List.length_append, String.length_utf8EncodeChar, List.length_cons]
    omega

/-- The bytes of some characters in front end between two characters. -/
theorem splitAt?_append (front back : List Char) :
    splitAt? (utf8 front).length (front ++ back) = some (front, back) := by
  induction front with
  | nil => simp [utf8, splitAt?]
  | cons c front ih =>
    obtain ⟨size, hsize⟩ := Nat.exists_eq_add_one_of_ne_zero c.utf8Size_pos.ne'
    have hlength : (utf8 (c :: front)).length = size + (utf8 front).length + 1 := by
      simp only [utf8_cons, List.length_append, String.length_utf8EncodeChar, hsize]
      omega
    have hrest : size + (utf8 front).length + 1 - (size + 1) = (utf8 front).length := by omega
    rw [hlength, List.cons_append, splitAt?, hsize, hrest, ih, if_pos (by omega)]

theorem cutFrom_append (front back : List Char) :
    cutFrom (front ++ back) (utf8 front).length = .ok back := by
  rw [cutFrom, splitAt?_append]

theorem cut_append (front middle back : List Char) :
    cut (front ++ middle ++ back) (utf8 front).length (utf8 (front ++ middle)).length =
      .ok middle := by
  rw [cut, splitAt?_append]
  exact cutFrom_append front middle

end Offsets

section FirstBytes

/-- The byte that a character starts with. -/
def lead (c : Char) : UInt8 :=
  (String.utf8EncodeChar c).headD 0

theorem getElem?_utf8_append (front : List Char) (c : Char) (back : List Char) :
    (utf8 (front ++ c :: back))[(utf8 front).length]? = some (lead c) := by
  obtain ⟨byte, bytes, hbytes⟩ := List.exists_cons_of_length_pos
    (lt_of_lt_of_eq c.utf8Size_pos (String.length_utf8EncodeChar c).symm)
  rw [utf8_append, List.getElem?_append_right le_rfl, Nat.sub_self, utf8_cons, lead, hbytes]
  rfl

theorem lead_of_ascii {c : Char} (h : c.toNat ≤ 127) : lead c = UInt8.ofNat c.toNat := by
  have hval : c.val.toNat ≤ 127 := h
  simp only [lead, String.utf8EncodeChar, if_pos hval, List.headD_cons]
  rfl

theorem le_lead_of_not_ascii {c : Char} (h : ¬ c.toNat ≤ 127) : 0x80 ≤ lead c := by
  have hval : ¬ c.val.toNat ≤ 127 := h
  rw [UInt8.le_iff_toNat_le]
  simp only [lead, String.utf8EncodeChar, if_neg hval]
  split
  · simp only [List.headD_cons, UInt8.toNat_ofNat', UInt8.reduceToNat]
    omega
  · split
    · simp only [List.headD_cons, UInt8.toNat_ofNat', UInt8.reduceToNat]
      omega
    · simp only [List.headD_cons, UInt8.toNat_ofNat', UInt8.reduceToNat]
      omega

theorem le_lead_iff (c : Char) : 0x80 ≤ lead c ↔ ¬ c.toNat ≤ 127 := by
  constructor
  · intro hlead hascii
    rw [lead_of_ascii hascii, UInt8.le_iff_toNat_le] at hlead
    simp only [UInt8.toNat_ofNat', UInt8.reduceToNat] at hlead
    omega
  · exact le_lead_of_not_ascii

/-- A first byte below 128 tells which character it is. -/
theorem lead_eq_iff (c ascii : Char) (h : ascii.toNat ≤ 127) :
    lead c = UInt8.ofNat ascii.toNat ↔ c = ascii := by
  constructor
  · intro hlead
    have hascii : c.toNat ≤ 127 := by
      by_contra hnot
      have hbound := le_lead_of_not_ascii hnot
      rw [hlead, UInt8.le_iff_toNat_le] at hbound
      simp only [UInt8.toNat_ofNat', UInt8.reduceToNat] at hbound
      omega
    rw [lead_of_ascii hascii] at hlead
    have hnat := congrArg UInt8.toNat hlead
    rw [UInt8.toNat_ofNat', UInt8.toNat_ofNat', Nat.mod_eq_of_lt (by omega),
      Nat.mod_eq_of_lt (by omega)] at hnat
    exact Char.toNat_inj.mp hnat
  · rintro rfl
    exact lead_of_ascii h

end FirstBytes

section Step

theorem length_utf8_lt (front : List Char) {chars : List Char} (h : chars ≠ []) :
    (utf8 front).length < (utf8 (front ++ chars)).length := by
  have hsize := length_le_length_utf8 chars
  have hpos := List.length_pos_iff.mpr h
  simp only [utf8_append, List.length_append]
  omega

theorem length_utf8_singleton {c : Char} (h : c.toNat ≤ 127) : (utf8 [c]).length = 1 := by
  simp [utf8, String.utf8EncodeChar, h]

theorem length_utf8_concat (front : List Char) (c : Char) (h : c.toNat ≤ 127) :
    (utf8 (front ++ [c])).length = (utf8 front).length + 1 := by
  rw [utf8_append, List.length_append, length_utf8_singleton h]

variable {brackets : List Char}

/-- Brackets are passed over up to the first character that is none. -/
theorem skipBrackets_append (hbrackets : ∀ c ∈ brackets, c = '[') (front tail : List Char)
    (htail : tail.head? ≠ some '[') :
    skipBrackets (utf8 (front ++ (brackets ++ tail))) (utf8 front).length =
      .ok (utf8 (front ++ brackets)).length := by
  induction brackets generalizing front with
  | nil =>
    rw [skipBrackets, List.nil_append, List.append_nil]
    cases tail with
    | nil => simp [pure, Except.pure]
    | cons c tail =>
      have hother : lead c ≠ 0x5b := by
        intro hlead
        have hc := (lead_eq_iff c '[' (by decide)).mp hlead
        simp [hc] at htail
      rw [if_pos (length_utf8_lt front (by simp)), byteAt, getElem?_utf8_append]
      simp [bind, Except.bind, pure, Except.pure, hother]
  | cons c brackets ih =>
    obtain ⟨rfl, hrest⟩ := List.forall_mem_cons.mp hbrackets
    have hbracket : lead '[' = 0x5b := (lead_eq_iff _ '[' (by decide)).mpr rfl
    have hstep := ih hrest (front ++ ['['])
    rw [length_utf8_concat front '[' (by decide), List.append_assoc, List.append_assoc] at hstep
    rw [skipBrackets, if_pos (length_utf8_lt front (by simp)), byteAt, List.cons_append,
      getElem?_utf8_append]
    simp only [bind, Except.bind, hbracket, if_true]
    exact hstep

theorem find?_of_mem {path : List Char} (hpath : ';' ∉ path) (rest : List Char) :
    find? ';' (path ++ ';' :: rest) = some (utf8 path).length := by
  have hopen : ∀ c ∈ path, (c != ';') = true := by
    intro c hc
    simpa using ne_of_mem_of_not_mem hc hpath
  simp [find?, List.takeWhile_append_of_pos hopen]

/-- The base type at an offset ends behind its last character. -/
theorem endOfBase_append {c : Char} {name : List Char} (hbase : IsBase (c :: name))
    (hascii : c.toNat ≤ 127) (front rest : List Char) :
    endOfBase (front ++ (c :: name ++ rest)) (lead c) (utf8 front).length =
      .ok (some (utf8 (front ++ c :: name)).length) := by
  cases hbase with
  | single _ hclass =>
    have hother : lead c ≠ 0x4c := fun hlead => hclass ((lead_eq_iff c 'L' (by decide)).mp hlead)
    rw [endOfBase, if_neg hother, length_utf8_concat front c hascii]
    rfl
  | @className path hpath =>
    have hlead : lead 'L' = 0x4c := (lead_eq_iff _ 'L' (by decide)).mpr rfl
    have hname : ';' ∉ 'L' :: path := by simpa using hpath
    have hfind : find? ';' ('L' :: (path ++ [';']) ++ rest) = some (utf8 ('L' :: path)).length := by
      simpa using find?_of_mem hname rest
    have hstop : (utf8 ('L' :: path)).length + (utf8 front).length + 1 =
        (utf8 (front ++ 'L' :: (path ++ [';']))).length := by
      have hend := length_utf8_concat (front ++ 'L' :: path) ';' (by decide)
      rw [List.append_assoc, List.cons_append, utf8_append front ('L' :: path),
        List.length_append] at hend
      omega
    rw [endOfBase, if_pos hlead, cutFrom_append]
    simp only [bind, Except.bind, hfind, Option.map_some, hstop]
    rfl

theorem endOfBase_unfinished {path : List Char} (hpath : ';' ∉ path) (front : List Char) :
    endOfBase (front ++ 'L' :: path) (lead 'L') (utf8 front).length = .ok none := by
  have hlead : lead 'L' = 0x4c := (lead_eq_iff _ 'L' (by decide)).mpr rfl
  have hfind : find? ';' ('L' :: path) = none := by simp [find?, hpath]
  rw [endOfBase, if_pos hlead, cutFrom_append]
  simp only [bind, Except.bind, hfind, Option.map_none]
  rfl

/-- One byte that is `J` or `D` makes a wide type. -/
theorem wide_iff (front : List Char) (c : Char) (name : List Char) :
    (utf8 front).length + 1 = (utf8 (front ++ (brackets ++ c :: name))).length ∧
        (lead c = 0x4a ∨ lead c = 0x44) ↔
      brackets ++ c :: name = ['J'] ∨ brackets ++ c :: name = ['D'] := by
  have hlong : lead c = 0x4a ↔ c = 'J' := lead_eq_iff c 'J' (by decide)
  have hdouble : lead c = 0x44 ↔ c = 'D' := lead_eq_iff c 'D' (by decide)
  rw [hlong, hdouble, utf8_append front, List.length_append]
  constructor
  · rintro ⟨hlength, hwide⟩
    have hchars := length_le_length_utf8 (brackets ++ c :: name)
    have hshort : brackets.length + (name.length + 1) ≤ 1 := by
      rw [List.length_append, List.length_cons] at hchars
      omega
    have hbrackets : brackets = [] := List.eq_nil_of_length_eq_zero (by omega)
    have hname : name = [] := List.eq_nil_of_length_eq_zero (by omega)
    simpa [hbrackets, hname] using hwide
  · intro hwide
    simp only [List.append_eq_singleton_iff, List.cons.injEq, reduceCtorEq, and_false,
      or_false] at hwide
    rcases hwide with ⟨rfl, rfl, rfl⟩ | ⟨rfl, rfl, rfl⟩
    · simp [length_utf8_singleton]
    · simp [length_utf8_singleton]

/-- A type is passed over if it is a value type and its registers can be counted. -/
theorem step_append {c : Char} {name : List Char} (hbrackets : ∀ c ∈ brackets, c = '[')
    (hbase : IsBase (c :: name)) (hascii : c.toNat ≤ 127) (front rest : List Char)
    (registers : ℕ) :
    step (front ++ (brackets ++ c :: name ++ rest)) ⟨(utf8 front).length, registers⟩ =
      .ok (if isValueType (brackets ++ c :: name) &&
          registers + width (brackets ++ c :: name) < 65536 then
        some ⟨(utf8 (front ++ (brackets ++ c :: name))).length,
          registers + width (brackets ++ c :: name)⟩
      else none) := by
  have hopen : (c :: name ++ rest).head? ≠ some '[' := by
    cases hbase with
    | single hbracket => simpa using hbracket
    | className => simp
  have hskip := skipBrackets_append hbrackets front _ hopen
  have hbyte := getElem?_utf8_append (front ++ brackets) c (name ++ rest)
  have hend := endOfBase_append hbase hascii (front ++ brackets) rest
  have hcut := cut_append front (brackets ++ c :: name) rest
  have hlead : ¬ 0x80 ≤ lead c := fun hlead => (le_lead_iff c).mp hlead hascii
  have hwidth : (if (utf8 front).length + 1 = (utf8 (front ++ (brackets ++ c :: name))).length &&
      (lead c = 0x4a || lead c = 0x44) then 2 else 1) = width (brackets ++ c :: name) := by
    simp only [width, Bool.and_eq_true, Bool.or_eq_true, decide_eq_true_eq, wide_iff]
  simp only [List.append_assoc, List.cons_append] at hskip hbyte hend hcut hwidth ⊢
  simp only [step, hskip, bind, Except.bind, hbyte, if_neg hlead, hend, hcut, hwidth]
  split
  · rfl
  · rfl

/-- Nothing is passed over where no type stands. -/
theorem step_brackets (hbrackets : ∀ c ∈ brackets, c = '[') (front : List Char)
    (registers : ℕ) :
    step (front ++ brackets) ⟨(utf8 front).length, registers⟩ = .ok none := by
  have hskip := skipBrackets_append hbrackets front [] (by simp)
  have hbyte : (utf8 (front ++ brackets))[(utf8 (front ++ brackets)).length]? = none := by simp
  rw [List.append_nil] at hskip
  simp only [step, hskip, bind, Except.bind, hbyte]
  rfl

theorem step_not_ascii (hbrackets : ∀ c ∈ brackets, c = '[') {c : Char} (hc : ¬ c.toNat ≤ 127)
    (front rest : List Char) (registers : ℕ) :
    step (front ++ (brackets ++ c :: rest)) ⟨(utf8 front).length, registers⟩ = .ok none := by
  have hopen : (c :: rest).head? ≠ some '[' := by
    intro heq
    obtain rfl : c = '[' := by simpa using heq
    exact hc (by decide)
  have hskip := skipBrackets_append hbrackets front _ hopen
  have hbyte := getElem?_utf8_append (front ++ brackets) c rest
  rw [List.append_assoc] at hbyte
  simp only [step, hskip, bind, Except.bind, hbyte, if_pos ((le_lead_iff c).mpr hc)]
  rfl

theorem step_unfinished (hbrackets : ∀ c ∈ brackets, c = '[') {path : List Char}
    (hpath : ';' ∉ path) (front : List Char) (registers : ℕ) :
    step (front ++ (brackets ++ 'L' :: path)) ⟨(utf8 front).length, registers⟩ = .ok none := by
  have hskip := skipBrackets_append hbrackets front ('L' :: path) (by simp)
  have hbyte := getElem?_utf8_append (front ++ brackets) 'L' path
  have hend := endOfBase_unfinished hpath (front ++ brackets)
  rw [List.append_assoc] at hbyte hend
  have hlead : ¬ 0x80 ≤ lead 'L' := fun hlead => (le_lead_iff 'L').mp hlead (by decide)
  simp only [step, hskip, bind, Except.bind, hbyte, if_neg hlead, hend]
  rfl

end Step

section Run

/-- What the scan has to count from some registers on. -/
def tally (registers : ℕ) (params : List Char) : Option ℕ :=
  (((pieces? params).filter (·.all isValueType)).map (registers + totalWidth ·)).filter (· < 65536)

theorem tally_of_cut {type rest : List Char} (registers : ℕ)
    (hcut : pieces? (type ++ rest) = (pieces? rest).map (type :: ·)) :
    tally registers (type ++ rest) =
      if isValueType type && registers + width type < 65536 then
        tally (registers + width type) rest
      else none := by
  unfold tally
  rw [hcut]
  cases pieces? rest with
  | none => simp
  | some types =>
    have htotal : registers + width type + totalWidth types =
        registers + (width type + totalWidth types) := Nat.add_assoc ..
    by_cases hvalue : isValueType type
    · by_cases hlimit : registers + width type < 65536
      · simp [Option.filter, totalWidth, hvalue, hlimit, htotal]
      · have hover : ¬ registers + (width type + totalWidth types) < 65536 := by omega
        by_cases hall : types.all isValueType
        · simp [Option.filter, totalWidth, hvalue, hlimit, hall, hover]
        · simp [Option.filter, hvalue, hlimit, hall]
    · simp [Option.filter, hvalue]

theorem ascii_of_isValueType {front : List Char} {c : Char} (h : isValueType (front ++ [c])) :
    c.toNat ≤ 127 := by
  obtain ⟨brackets, base, heq, -, hbase⟩ := exists_base_of_isValueType h
  have hlast := congrArg List.getLast? heq
  cases isBase_of_isBaseType hbase with
  | @single p =>
    have hprimitive : p ∈ primitives := by simpa [isBaseType] using hbase
    have hascii : ∀ p ∈ primitives, p.toNat ≤ 127 := by simp [primitives]
    obtain rfl : c = p := by simpa using hlast
    exact hascii c hprimitive
  | className =>
    obtain rfl : c = ';' := by simpa [List.getLast?_cons] using hlast
    decide

/-- What one step may do at an offset behind `front`: pass over a type that counts, or stop where
nothing can be counted any more. -/
def Steps (front post : List Char) (registers : ℕ) : Prop :=
  (step (front ++ post) ⟨(utf8 front).length, registers⟩ = .ok none ∧
      tally registers post = none) ∨
    ∃ type rest, type ≠ [] ∧ post = type ++ rest ∧ registers + width type < 65536 ∧
      step (front ++ post) ⟨(utf8 front).length, registers⟩ =
        .ok (some ⟨(utf8 (front ++ type)).length, registers + width type⟩) ∧
      tally registers post = tally (registers + width type) rest

section

variable {brackets : List Char} (hbrackets : ∀ c ∈ brackets, c = '[')

include hbrackets

theorem steps_of_base {c : Char} {name : List Char} (hbase : IsBase (c :: name))
    (hascii : c.toNat ≤ 127) (front rest : List Char) (registers : ℕ) :
    Steps front (brackets ++ c :: name ++ rest) registers := by
  have hstep := step_append hbrackets hbase hascii front rest registers
  have htally := tally_of_cut registers (pieces?_append hbrackets hbase rest)
  by_cases hcounts : isValueType (brackets ++ c :: name) &&
      registers + width (brackets ++ c :: name) < 65536
  · rw [if_pos hcounts] at hstep htally
    simp only [Bool.and_eq_true, decide_eq_true_eq] at hcounts
    exact Or.inr ⟨brackets ++ c :: name, rest, by simp, rfl, hcounts.2, hstep, htally⟩
  · rw [if_neg hcounts] at hstep htally
    exact Or.inl ⟨hstep, htally⟩

theorem steps_of_ascii {c : Char} (hopen : c ≠ '[') (hascii : c.toNat ≤ 127)
    (front tail : List Char) (registers : ℕ) :
    Steps front (brackets ++ c :: tail) registers := by
  by_cases hclass : c = 'L'
  · subst hclass
    by_cases hend : ';' ∈ tail
    · obtain ⟨path, rest, rfl, hpath⟩ := List.eq_append_cons_of_mem hend
      simpa using steps_of_base hbrackets (.className hpath) hascii front rest registers
    · refine Or.inl ⟨step_unfinished hbrackets hend front registers, ?_⟩
      simp [tally, pieces?_unfinished hbrackets hend]
  · simpa using steps_of_base hbrackets (.single hopen hclass) hascii front tail registers

theorem steps_of_not_ascii {c : Char} (hascii : ¬ c.toNat ≤ 127) (front tail : List Char)
    (registers : ℕ) : Steps front (brackets ++ c :: tail) registers := by
  have hbase : IsBase [c] := by
    refine .single ?_ ?_
    · rintro rfl
      exact hascii (by decide)
    · rintro rfl
      exact hascii (by decide)
  have htally := tally_of_cut registers (pieces?_append hbrackets hbase tail)
  have hvalue : ¬ isValueType (brackets ++ [c]) := fun h => hascii (ascii_of_isValueType h)
  refine Or.inl ⟨step_not_ascii hbrackets hascii front tail registers, ?_⟩
  simpa [hvalue] using htally

end

theorem steps_of_ne_nil (front : List Char) {post : List Char} (hpost : post ≠ [])
    (registers : ℕ) : Steps front post registers := by
  obtain ⟨brackets, tail, rfl, hbrackets, htail⟩ : ∃ brackets tail, post = brackets ++ tail ∧
      (∀ c ∈ brackets, c = '[') ∧ tail.head? ≠ some '[' := by
    refine ⟨post.takeWhile (· == '['), post.dropWhile (· == '['),
      List.takeWhile_append_dropWhile.symm, ?_, ?_⟩
    · intro c hc
      simpa using List.mem_takeWhile_imp hc
    · intro hhead
      have hnot := List.head?_dropWhile_not (· == '[') post
      simp [hhead] at hnot
  cases tail with
  | nil =>
    rw [List.append_nil] at hpost ⊢
    refine Or.inl ⟨step_brackets hbrackets front registers, ?_⟩
    simp [tally, pieces?_brackets hbrackets hpost]
  | cons c tail =>
    by_cases hascii : c.toNat ≤ 127
    · exact steps_of_ascii hbrackets (by simpa using htail) hascii front tail registers
    · exact steps_of_not_ascii hbrackets hascii front tail registers

/-- From between two characters the scan counts all that is left, and meets no fault. -/
theorem runFrom_append (front post : List Char) (registers : ℕ) (hlimit : registers < 65536) :
    runFrom (front ++ post) ⟨(utf8 front).length, registers⟩ = .ok (tally registers post) := by
  induction hlength : post.length using Nat.strong_induction_on
    generalizing front post registers with
  | _ n ih =>
    by_cases hpost : post = []
    · subst hpost
      rw [runFrom, List.append_nil, if_neg (Nat.lt_irrefl _)]
      simp [tally, pieces?, piecesFrom, totalWidth, Option.filter, hlimit]
    · rw [runFrom, if_pos (length_utf8_lt front hpost)]
      rcases steps_of_ne_nil front hpost registers with
        ⟨hstep, htally⟩ | ⟨type, rest, htype, rfl, hnext, hstep, htally⟩
      · rw [hstep, htally]
      · have hshorter : rest.length < n := by
          have hpos := List.length_pos_iff.mpr htype
          rw [List.length_append] at hlength
          omega
        have hrun := ih rest.length hshorter (front ++ type) rest _ hnext rfl
        rw [List.append_assoc] at hrun
        simp only [hstep, if_pos (length_utf8_lt front htype)]
        rw [hrun, htally]

/-- What the scan counts from the start are the registers of the types. -/
theorem map_tally_zero (params : List Char) :
    (tally 0 params).map Nat.toUInt16 =
      match (match pieces? params with
        | some types => if types.all isValueType then some types else none
        | none => none) with
      | some types =>
        if totalWidth types < 65536 then some (totalWidth types).toUInt16 else none
      | none => none := by
  unfold tally
  cases pieces? params with
  | none => rfl
  | some types =>
    by_cases hall : types.all isValueType
    · by_cases hlimit : totalWidth types < 65536
      · simp [Option.filter, hall, hlimit]
      · simp [Option.filter, hall, hlimit]
    · simp [Option.filter, hall]

/-- The scan meets no fault, and what it counts are the registers of the declared parameters. -/
theorem parameterRegisters_eq (text : String) :
    parameterRegisters text = .ok (parameterRegisters? text) := by
  unfold parameterRegisters parameterRegisters? parameters?
  cases text.toList with
  | nil => rfl
  | cons c rest =>
    by_cases hopen : c = '('
    · subst hopen
      have hrun := runFrom_append [] (rest.takeWhile (· != ')')) 0 (by decide)
      have hstart : (utf8 []).length = 0 := rfl
      rw [List.nil_append, hstart] at hrun
      cases hbehind : rest.dropWhile (· != ')') with
      | nil => simp [hbehind, pure, Except.pure]
      | cons c returned =>
        by_cases hreturned : isType returned
        · simp only [hbehind, hreturned, if_true, hrun, bind, Except.bind, map_tally_zero]
          rfl
        · simp [hbehind, hreturned, pure, Except.pure]
    · simp [hopen, pure, Except.pure]

end Run

end LiveDex.Descriptor.Scan

namespace LiveDex.Descriptor

/-- Registers are counted for exactly the descriptors that declare types taking at most 65535 of
them, no descriptor declares its types in two ways, and the scan over bytes ends without a fault in
the same answer. -/
theorem parameterRegisters?_accepts_declarations (text : String) :
    (∀ n : ℕ, (parameterRegisters? text).map UInt16.toNat = some n ↔
      ∃ parameters returned, Declares text parameters returned ∧
        n = (parameters.map registersOf).sum ∧ n ≤ 65535) ∧
    (∀ parameters returned parameters' returned', Declares text parameters returned →
      Declares text parameters' returned' → parameters = parameters' ∧ returned = returned') ∧
    Scan.parameterRegisters text = .ok (parameterRegisters? text) := by
  refine ⟨parameterRegisters?_eq_iff text, ?_, Scan.parameterRegisters_eq text⟩
  intro parameters returned parameters' returned' hdeclares hdeclares'
  exact hdeclares.unique hdeclares'

theorem parameterRegisters?_accepts_accented_name :
    (parameterRegisters? "([[JLé/D;D)V").map UInt16.toNat = some 4 ∧
      (∀ parameters returned, Declares "([[JLé/D;D)V" parameters returned →
        parameters = ["[[J", "Lé/D;", "D"] ∧ returned = "V") ∧
      Scan.parameterRegisters "([[JLé/D;D)V" = .ok (some 4) := by
  obtain ⟨haccepts, hunique, hscan⟩ := parameterRegisters?_accepts_declarations "([[JLé/D;D)V"
  have hdeclares : Declares "([[JLé/D;D)V" ["[[J", "Lé/D;", "D"] "V" :=
    ⟨by decide, by decide, by decide⟩
  refine ⟨(haccepts 4).mpr ⟨_, _, hdeclares, by decide, by decide⟩, ?_, ?_⟩
  · intro parameters returned hother
    exact hunique _ _ _ _ hother hdeclares
  · rw [hscan]
    decide

end LiveDex.Descriptor
