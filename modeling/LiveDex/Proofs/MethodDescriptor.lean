import LiveDex.Descriptor
import Mathlib.Algebra.GroupWithZero.Nat
import Mathlib.Data.List.Basic
import Mathlib.Data.List.TakeWhile

/-!
The grammar of method descriptors. A parameter list is cut behind each base type, and the pieces of
value types put together are cut at the same places again, so a parameter list is the list of its
types in one way only. The list itself ends at the first closing parenthesis, which is also the end
of a class name that has one in it.
-/
namespace LiveDex.Descriptor

/-- What ends a piece: a character that opens nothing, or a class name up to its `;`. -/
inductive IsBase : List Char → Prop
  | single {c : Char} (hbracket : c ≠ '[') (hclass : c ≠ 'L') : IsBase [c]
  | className {path : List Char} (hpath : ';' ∉ path) : IsBase ('L' :: (path ++ [';']))

theorem piecesFrom_done (inClass : Bool) (piece : List Char) (done : List (List Char))
    (chars : List Char) :
    piecesFrom inClass piece done chars =
      (piecesFrom inClass piece [] chars).map (done.reverse ++ ·) := by
  induction chars generalizing inClass piece done with
  | nil =>
    cases piece <;> simp [piecesFrom]
  | cons c rest ih =>
    simp only [piecesFrom]
    split
    · exact ih ..
    · split
      · exact ih ..
      · split
        · rw [ih false [] (_ :: done), ih false [] [_], Option.map_map]
          congr 1
          funext types
          simp
        · exact ih ..

theorem piecesFrom_brackets {brackets : List Char} (h : ∀ c ∈ brackets, c = '[')
    (piece : List Char) (done : List (List Char)) (rest : List Char) :
    piecesFrom false piece done (brackets ++ rest) =
      piecesFrom false (brackets.reverse ++ piece) done rest := by
  induction brackets generalizing piece with
  | nil => rfl
  | cons c brackets ih =>
    obtain ⟨rfl, hrest⟩ := List.forall_mem_cons.mp h
    simp [piecesFrom, ih hrest]

theorem piecesFrom_className {path : List Char} (h : ';' ∉ path) (piece : List Char)
    (done : List (List Char)) (rest : List Char) :
    piecesFrom true piece done (path ++ rest) =
      piecesFrom true (path.reverse ++ piece) done rest := by
  induction path generalizing piece with
  | nil => rfl
  | cons c path ih =>
    simp only [List.mem_cons, not_or] at h
    simp [piecesFrom, Ne.symm h.1, ih h.2]

/-- A piece is cut off as a whole. -/
theorem pieces?_append {brackets base : List Char} (hbrackets : ∀ c ∈ brackets, c = '[')
    (hbase : IsBase base) (rest : List Char) :
    pieces? (brackets ++ base ++ rest) = (pieces? rest).map ((brackets ++ base) :: ·) := by
  have hend (piece : List Char) : piecesFrom false [] [piece] rest =
      (pieces? rest).map (piece :: ·) := piecesFrom_done false [] [piece] rest
  unfold pieces? at hend ⊢
  rw [List.append_assoc, piecesFrom_brackets hbrackets]
  cases hbase with
  | single hbracket hclass =>
    simp [piecesFrom, hbracket, hclass, hend]
  | className hpath =>
    have hinside := piecesFrom_className hpath ('L' :: brackets.reverse) [] (';' :: rest)
    simp [piecesFrom, hinside, hend]

/-- A class name without its end is no piece. -/
theorem pieces?_unfinished {brackets path : List Char} (hbrackets : ∀ c ∈ brackets, c = '[')
    (hpath : ';' ∉ path) : pieces? (brackets ++ 'L' :: path) = none := by
  have hinside := piecesFrom_className hpath ('L' :: brackets.reverse) [] []
  unfold pieces?
  rw [piecesFrom_brackets hbrackets]
  simp only [List.append_nil] at hinside
  simp [piecesFrom, hinside]

theorem pieces?_brackets {brackets : List Char} (h : ∀ c ∈ brackets, c = '[')
    (hne : brackets ≠ []) : pieces? brackets = none := by
  have hopen := piecesFrom_brackets h [] [] []
  rw [List.append_nil, List.append_nil] at hopen
  simp [pieces?, hopen, piecesFrom, hne]

theorem flatten_of_piecesFrom {inClass : Bool} {piece chars : List Char}
    {done types : List (List Char)} (h : piecesFrom inClass piece done chars = some types) :
    types.flatten = done.reverse.flatten ++ piece.reverse ++ chars := by
  induction chars generalizing inClass piece done with
  | nil =>
    cases piece with
    | nil =>
      obtain rfl : done.reverse = types := by simpa [piecesFrom] using h
      simp
    | cons c piece => simp [piecesFrom] at h
  | cons c rest ih =>
    simp only [piecesFrom] at h
    split at h
    · simpa using ih h
    · split at h
      · simpa using ih h
      · split at h
        · simpa using ih h
        · simpa using ih h

/-- What is cut off at once. -/
def IsPiece (type : List Char) : Prop :=
  ∃ brackets base, type = brackets ++ base ∧ (∀ c ∈ brackets, c = '[') ∧ IsBase base

theorem pieces?_flatten_append {types : List (List Char)} (h : ∀ type ∈ types, IsPiece type)
    (rest : List Char) :
    pieces? (types.flatten ++ rest) = (pieces? rest).map (types ++ ·) := by
  induction types with
  | nil => simp
  | cons type types ih =>
    obtain ⟨⟨brackets, base, rfl, hbrackets, hbase⟩, hrest⟩ := List.forall_mem_cons.mp h
    rw [List.flatten_cons, List.append_assoc, pieces?_append hbrackets hbase, ih hrest,
      Option.map_map]
    rfl

section Types

variable {type : List Char}

theorem isBase_of_isBaseType (h : isBaseType type) : IsBase type := by
  unfold isBaseType at h
  split at h
  case h_1 c =>
    have hprimitive : c ∈ primitives := by simpa using h
    have hopens : ∀ p ∈ primitives, p ≠ '[' ∧ p ≠ 'L' := by simp [primitives]
    exact .single (hopens c hprimitive).1 (hopens c hprimitive).2
  case h_2 rest _ =>
    obtain ⟨hlast, hpath⟩ := Bool.and_eq_true_iff.mp h
    obtain ⟨path, rfl⟩ := List.getLast?_eq_some_iff.mp (beq_iff_eq.mp hlast)
    refine .className ?_
    simp only [List.dropLast_concat, isClassPath, Bool.and_eq_true, Bool.not_eq_true',
      List.contains_eq_mem, decide_eq_false_iff_not] at hpath
    exact hpath.1.1.1.2
  case h_3 => cases h

/-- A value type is a base type behind brackets. -/
theorem exists_base_of_isValueType (h : isValueType type) :
    ∃ brackets base, type = brackets ++ base ∧ (∀ c ∈ brackets, c = '[') ∧ isBaseType base := by
  refine ⟨type.takeWhile (· == '['), type.dropWhile (· == '['),
    List.takeWhile_append_dropWhile.symm, ?_, ?_⟩
  · intro c hc
    simpa using List.mem_takeWhile_imp hc
  · simp only [isValueType, isType, Bool.and_eq_true, bne_iff_ne, ne_eq, Bool.or_eq_true,
      beq_iff_eq] at h
    obtain ⟨hvoid, heq | ⟨-, hbase⟩⟩ := h
    · exact absurd heq hvoid
    · exact hbase

theorem isPiece_of_isValueType (h : isValueType type) : IsPiece type := by
  obtain ⟨brackets, base, rfl, hbrackets, hbase⟩ := exists_base_of_isValueType h
  exact ⟨brackets, base, rfl, hbrackets, isBase_of_isBaseType hbase⟩

/-- A parenthesis in a value type is in a class name. -/
theorem exists_path_of_mem (h : isValueType type) (hmem : ')' ∈ type) :
    ∃ brackets path, type = brackets ++ 'L' :: (path ++ [';']) ∧ (∀ c ∈ brackets, c = '[') ∧
      ';' ∉ path ∧ ')' ∈ path := by
  obtain ⟨brackets, base, rfl, hbrackets, hbase⟩ := exists_base_of_isValueType h
  have hmemBase : ')' ∈ base := by
    rcases List.mem_append.mp hmem with hleft | hright
    · cases hbrackets _ hleft
    · exact hright
  cases isBase_of_isBaseType hbase with
  | single =>
    rw [List.mem_singleton] at hmemBase
    subst hmemBase
    exact absurd hbase (by decide)
  | @className path hpath =>
    refine ⟨brackets, path, rfl, hbrackets, hpath, ?_⟩
    simpa using hmemBase

end Types

/-- Value types are what their list is cut into, and are found in it in no other way. -/
theorem pieces?_eq_some_iff {params : List Char} {types : List (List Char)}
    (h : ∀ type ∈ types, isValueType type) :
    pieces? params = some types ↔ params = types.flatten := by
  constructor
  · intro hpieces
    simpa using (flatten_of_piecesFrom hpieces).symm
  · rintro rfl
    have hcut := pieces?_flatten_append (fun type htype => isPiece_of_isValueType (h type htype)) []
    simpa [pieces?, piecesFrom] using hcut

/-- The parameter list of a method descriptor ends at the first closing parenthesis. -/
theorem parameters?_of_split {text : String} {front returned : List Char}
    (htext : text.toList = '(' :: (front ++ ')' :: returned)) (hfront : ')' ∉ front) :
    parameters? text =
      if isType returned then (pieces? front).filter (·.all isValueType) else none := by
  have hopen : ∀ c ∈ front, (c != ')') = true := by
    intro c hc
    simpa using ne_of_mem_of_not_mem hc hfront
  simp only [parameters?, htext, List.dropWhile_append_of_pos hopen,
    List.takeWhile_append_of_pos hopen, bne_self_eq_false, List.dropWhile_cons, List.takeWhile_cons,
    Bool.false_eq_true, if_false, List.append_nil]
  cases pieces? front with
  | none => simp
  | some types => simp [Option.filter]

theorem exists_split_of_parameters? {text : String} {types : List (List Char)}
    (h : parameters? text = some types) :
    ∃ front returned, text.toList = '(' :: (front ++ ')' :: returned) ∧ ')' ∉ front := by
  unfold parameters? at h
  split at h
  case h_1 rest hrest =>
    split at h
    case h_1 c returned hreturned =>
      have hclose : c = ')' := by
        have hhead := List.head?_dropWhile_not (· != ')') rest
        simpa [hreturned] using hhead
      have hparts := List.takeWhile_append_dropWhile (p := (· != ')')) (l := rest)
      rw [hreturned, hclose] at hparts
      refine ⟨rest.takeWhile (· != ')'), returned, ?_, ?_⟩
      · rw [hrest, hparts]
      · intro hmem
        simpa using List.mem_takeWhile_imp hmem
    case h_2 => cases h
  case h_2 => cases h

theorem parameters?_eq_some_iff (text : String) (types : List (List Char)) :
    parameters? text = some types ↔
      ∃ returned, text.toList = '(' :: (types.flatten ++ ')' :: returned) ∧
        (∀ type ∈ types, isValueType type ∧ ')' ∉ type) ∧ isType returned := by
  constructor
  · intro h
    obtain ⟨front, returned, htext, hfront⟩ := exists_split_of_parameters? h
    rw [parameters?_of_split htext hfront, Option.ite_none_right_eq_some,
      Option.filter_eq_some_iff] at h
    obtain ⟨hreturned, hpieces, hall⟩ := h
    have hvalues : ∀ type ∈ types, isValueType type := by simpa using hall
    obtain rfl := (pieces?_eq_some_iff hvalues).mp hpieces
    refine ⟨returned, htext, ?_, hreturned⟩
    intro type htype
    refine ⟨hvalues type htype, ?_⟩
    intro hmem
    exact hfront (List.mem_flatten.mpr ⟨type, htype, hmem⟩)
  · rintro ⟨returned, htext, htypes, hreturned⟩
    have hvalues : ∀ type ∈ types, isValueType type := fun type htype => (htypes type htype).1
    have hfront : ')' ∉ types.flatten := by
      intro hmem
      obtain ⟨type, htype, hc⟩ := List.mem_flatten.mp hmem
      exact (htypes type htype).2 hc
    rw [parameters?_of_split htext hfront, if_pos hreturned, (pieces?_eq_some_iff hvalues).mpr rfl]
    simpa [Option.filter] using hvalues

theorem exists_first_closed {types : List (List Char)} (h : ∃ type ∈ types, ')' ∈ type) :
    ∃ before type after, types = before ++ type :: after ∧ (∀ type ∈ before, ')' ∉ type) ∧
      ')' ∈ type := by
  induction types with
  | nil => simp at h
  | cons first types ih =>
    by_cases hfirst : ')' ∈ first
    · exact ⟨[], first, types, rfl, by simp, hfirst⟩
    · have hlater : ∃ type ∈ types, ')' ∈ type := by simpa [hfirst] using h
      obtain ⟨before, type, after, rfl, hbefore, hclosed⟩ := ih hlater
      exact ⟨first :: before, type, after, rfl, List.forall_mem_cons.mpr ⟨hfirst, hbefore⟩,
        hclosed⟩

/-- A closing parenthesis in a class name cuts the name off. -/
theorem parameters?_eq_none_of_mem {text : String} {types : List (List Char)}
    {returned : List Char} (htext : text.toList = '(' :: (types.flatten ++ ')' :: returned))
    (htypes : ∀ type ∈ types, isValueType type) (hmem : ∃ type ∈ types, ')' ∈ type) :
    parameters? text = none := by
  -- the first type that has one in it, and the characters in front of the first one in its name
  obtain ⟨before, type, after, rfl, hbefore, hclosed⟩ := exists_first_closed hmem
  obtain ⟨brackets, path, rfl, hbrackets, hpath, hclosed⟩ :=
    exists_path_of_mem (htypes type (by simp)) hclosed
  obtain ⟨start, rest, rfl, hstart⟩ := List.eq_append_cons_of_mem hclosed
  have hpieces : ∀ type ∈ before, IsPiece type := by
    intro type htype
    exact isPiece_of_isValueType (htypes type (by simp [htype]))
  have hsemicolon : ';' ∉ start := fun h => hpath (by simp [h])
  have hcut : pieces? (before.flatten ++ (brackets ++ 'L' :: start)) = none := by
    rw [pieces?_flatten_append hpieces, pieces?_unfinished hbrackets hsemicolon]
    rfl
  have hsplit : text.toList = '(' :: (before.flatten ++ (brackets ++ 'L' :: start) ++
      ')' :: (rest ++ ';' :: (after.flatten ++ ')' :: returned))) := by
    simp [htext]
  have hfront : ')' ∉ before.flatten ++ (brackets ++ 'L' :: start) := by
    simp only [List.mem_append, List.mem_cons, List.mem_flatten, not_or, not_exists, not_and]
    refine ⟨hbefore, fun h => ?_, by decide, hstart⟩
    cases hbrackets _ h
  rw [parameters?_of_split hsplit hfront, hcut]
  simp

/-- Registers that a parameter of the type takes. -/
def registersOf (type : String) : ℕ :=
  if type = "J" ∨ type = "D" then 2 else 1

/-- The method descriptor with the given parameter types and return type. -/
def methodDescriptor (parameters : List String) (returned : String) : String :=
  "(" ++ String.join parameters ++ ")" ++ returned

/-- A method descriptor that declares parameters of these types and returns a value of that one.
No class name among the parameter types has a closing parenthesis in it. -/
structure Declares (text : String) (parameters : List String) (returned : String) : Prop where
  text_eq : text = methodDescriptor parameters returned
  parameter_types : ∀ type ∈ parameters, isTypeDescriptor type ∧ type ≠ "V" ∧ ')' ∉ type.toList
  return_type : isTypeDescriptor returned

theorem toList_methodDescriptor (parameters : List String) (returned : String) :
    (methodDescriptor parameters returned).toList =
      '(' :: ((parameters.map String.toList).flatten ++ ')' :: returned.toList) := by
  simp [methodDescriptor, String.toList_join, List.flatMap]

theorem isValueType_toList_iff (type : String) :
    isValueType type.toList ↔ isTypeDescriptor type ∧ type ≠ "V" := by
  have hvoid : type.toList = ['V'] ↔ type = "V" := @String.toList_inj type "V"
  rw [isValueType, Bool.and_eq_true, bne_iff_ne, ne_eq, hvoid, and_comm]
  rfl

theorem width_toList (type : String) : width type.toList = registersOf type := by
  have hlong : type.toList = ['J'] ↔ type = "J" := @String.toList_inj type "J"
  have hdouble : type.toList = ['D'] ↔ type = "D" := @String.toList_inj type "D"
  simp [width, registersOf, hlong, hdouble]

theorem totalWidth_toList (parameters : List String) :
    totalWidth (parameters.map String.toList) = (parameters.map registersOf).sum := by
  induction parameters with
  | nil => rfl
  | cons type parameters ih => simp [totalWidth, width_toList, ih]

theorem parameters?_toList_iff (text : String) (parameters : List String) :
    parameters? text = some (parameters.map String.toList) ↔
      ∃ returned, Declares text parameters returned := by
  rw [parameters?_eq_some_iff]
  constructor
  · rintro ⟨returned, htext, htypes, hreturned⟩
    refine ⟨String.ofList returned, ?_, ?_, by simpa [isTypeDescriptor] using hreturned⟩
    · apply String.toList_inj.mp
      simp [htext, toList_methodDescriptor]
    · intro type htype
      obtain ⟨hvalue, hclosed⟩ := htypes type.toList (List.mem_map_of_mem htype)
      obtain ⟨hdescriptor, hvoid⟩ := (isValueType_toList_iff type).mp hvalue
      exact ⟨hdescriptor, hvoid, hclosed⟩
  · rintro ⟨returned, rfl, htypes, hreturned⟩
    refine ⟨returned.toList, toList_methodDescriptor .., ?_, hreturned⟩
    rw [List.forall_mem_map]
    intro type htype
    obtain ⟨hdescriptor, hvoid, hclosed⟩ := htypes type htype
    exact ⟨(isValueType_toList_iff type).mpr ⟨hdescriptor, hvoid⟩, hclosed⟩

theorem exists_declares_of_parameters? {text : String} {types : List (List Char)}
    (h : parameters? text = some types) :
    ∃ parameters returned, Declares text parameters returned ∧
      types = parameters.map String.toList := by
  have hmap : types = (types.map String.ofList).map String.toList := by
    simp [Function.comp_def]
  rw [hmap] at h
  obtain ⟨returned, hdeclares⟩ := (parameters?_toList_iff _ _).mp h
  exact ⟨_, returned, hdeclares, hmap⟩

/-- A method descriptor declares its types in one way only. -/
theorem Declares.unique {text returned returned' : String} {parameters parameters' : List String}
    (h : Declares text parameters returned) (h' : Declares text parameters' returned') :
    parameters = parameters' ∧ returned = returned' := by
  have hcut := (parameters?_toList_iff text parameters).mpr ⟨returned, h⟩
  have hcut' := (parameters?_toList_iff text parameters').mpr ⟨returned', h'⟩
  have hsame : parameters.map String.toList = parameters'.map String.toList :=
    Option.some.inj (hcut.symm.trans hcut')
  obtain rfl := (List.map_injective_iff.mpr fun _ _ => String.toList_inj.mp) hsame
  have htext := congrArg String.toList (h.text_eq.symm.trans h'.text_eq)
  simp only [toList_methodDescriptor, List.cons.injEq, true_and,
    List.append_cancel_left_eq] at htext
  exact ⟨rfl, String.toList_inj.mp htext⟩

theorem toNat_parameterRegisters? (text : String) :
    (parameterRegisters? text).map UInt16.toNat =
      ((parameters? text).map totalWidth).filter (· < 65536) := by
  unfold parameterRegisters?
  cases parameters? text with
  | none => rfl
  | some types =>
    by_cases htotal : totalWidth types < 65536
    · have hword : (totalWidth types).toUInt16.toNat = totalWidth types := by
        rw [Nat.toUInt16_eq, UInt16.toNat_ofNat_of_lt' htotal]
      simp [htotal, hword, Option.filter]
    · simp [htotal, Option.filter]

/-- The registers of a descriptor are those of the types that it declares. -/
theorem parameterRegisters?_eq_iff (text : String) (n : ℕ) :
    (parameterRegisters? text).map UInt16.toNat = some n ↔
      ∃ parameters returned, Declares text parameters returned ∧
        n = (parameters.map registersOf).sum ∧ n ≤ 65535 := by
  rw [toNat_parameterRegisters?, Option.filter_eq_some_iff, Option.map_eq_some_iff]
  constructor
  · rintro ⟨⟨types, htypes, rfl⟩, hlimit⟩
    obtain ⟨parameters, returned, hdeclares, rfl⟩ := exists_declares_of_parameters? htypes
    refine ⟨parameters, returned, hdeclares, totalWidth_toList parameters, ?_⟩
    exact Nat.le_of_lt_succ (of_decide_eq_true hlimit)
  · rintro ⟨parameters, returned, hdeclares, rfl, hlimit⟩
    have hcut := (parameters?_toList_iff text parameters).mpr ⟨returned, hdeclares⟩
    exact ⟨⟨_, hcut, totalWidth_toList parameters⟩, decide_eq_true (Nat.lt_succ_of_le hlimit)⟩

/-- Parameters may have every type that a field may have, unless its class name has a closing
parenthesis in it: one such type makes the whole descriptor malformed. -/
theorem parameterRegisters?_of_fieldTypes (parameters : List String) (returned : String)
    (hparameters : ∀ type ∈ parameters, isTypeDescriptor type ∧ type ≠ "V")
    (hreturned : isTypeDescriptor returned)
    (hlimit : (parameters.map registersOf).sum ≤ 65535) :
    (parameterRegisters? (methodDescriptor parameters returned)).map UInt16.toNat =
      if ∃ type ∈ parameters, ')' ∈ type.toList then none
      else some (parameters.map registersOf).sum := by
  split
  case isTrue hclosed =>
    have hvalues : ∀ type ∈ parameters.map String.toList, isValueType type := by
      rw [List.forall_mem_map]
      intro type htype
      exact (isValueType_toList_iff type).mpr (hparameters type htype)
    have hmem : ∃ type ∈ parameters.map String.toList, ')' ∈ type := by simpa using hclosed
    rw [toNat_parameterRegisters?,
      parameters?_eq_none_of_mem (toList_methodDescriptor parameters returned) hvalues hmem]
    rfl
  case isFalse hopen =>
    refine (parameterRegisters?_eq_iff _ _).mpr ⟨parameters, returned, ⟨rfl, ?_, hreturned⟩, rfl,
      hlimit⟩
    intro type htype
    obtain ⟨hdescriptor, hvoid⟩ := hparameters type htype
    exact ⟨hdescriptor, hvoid, fun hmem => hopen ⟨type, htype, hmem⟩⟩

theorem parameterRegisters?_of_long_array_class :
    (parameterRegisters? "(J[[DLa/Ä;)[I").map UInt16.toNat = some 4 := by
  have h := parameterRegisters?_of_fieldTypes ["J", "[[D", "La/Ä;"] "[I" (by decide) (by decide)
    (by decide)
  rwa [if_neg (by decide)] at h

/-- A class name with a closing parenthesis is the type of a field, and of no parameter. -/
theorem parameterRegisters?_of_closed_name :
    isTypeDescriptor "La)b;" ∧ "La)b;" ≠ "V" ∧ isTypeDescriptor "V" ∧
      (["La)b;"].map registersOf).sum = 1 ∧
      parameterRegisters? (methodDescriptor ["La)b;"] "V") = none := by
  decide

end LiveDex.Descriptor
