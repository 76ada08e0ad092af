import LiveDex.Image
import Mathlib.Data.List.Induction
import Mathlib.Data.List.Nodup

/-!
Class names and the images that are looked up by them. A descriptor gives back the internal name
it was made of, while a qualified name survives the way to the internal form and back only if it
has no slash, and an internal name the other way only if it has no dot. An image serves, under each
internal name, the last class that has it.
-/
namespace LiveDex

namespace ClassName

theorem ofDescriptor_descriptorOf (name : String) : ofDescriptor (descriptorOf name) = name := by
  have hsome : ofDescriptor? (descriptorOf name) = some name := by
    simp [ofDescriptor?, descriptorOf]
  rw [ofDescriptor, hsome]
  rfl

/-- Replacing a character by another and that one by the first gives the text back unless it had
the other. -/
theorem map_replace_back_eq_iff {a b : Char} (hab : a ≠ b) (text : String) :
    (text.map fun c => if c = a then b else c).map (fun c => if c = b then a else c) = text ↔
      b ∉ text.toList := by
  have hchar (c : Char) : (if (if c = a then b else c) = b then a else if c = a then b else c) = c ↔
      c ≠ b := by
    by_cases ha : c = a
    · simp [ha, hab]
    · by_cases hb : c = b
      · simp [hb, hab]
      · simp [ha, hb]
  rw [String.map_map, ← String.toList_inj, String.toList_map]
  nth_rewrite 2 [← List.map_id text.toList]
  rw [List.map_inj_left]
  constructor
  · intro h hmem
    exact (hchar b).mp (h b hmem) rfl
  · intro h c hc
    apply (hchar c).mpr
    intro heq
    exact h (heq ▸ hc)

theorem dotted_internal_eq_iff (name : String) :
    dotted (internal name) = name ↔ '/' ∉ name.toList :=
  map_replace_back_eq_iff (by decide) name

theorem internal_dotted_eq_iff (name : String) :
    internal (dotted name) = name ↔ '.' ∉ name.toList :=
  map_replace_back_eq_iff (by decide) name

theorem slash_notMem_dotted (name : String) : '/' ∉ (dotted name).toList := by
  rw [dotted, String.toList_map, List.mem_map]
  intro h
  obtain ⟨c, -, hc⟩ := h
  by_cases hslash : c = '/'
  · simp [hslash] at hc
  · simp [hslash] at hc

end ClassName

/-- The class object of a record that has the descriptor of a qualified name. -/
theorem ClassObject.ofRecord_of_descriptor {record : ClassRecord} {name : String}
    (hdescriptor : record.descriptor = ClassName.descriptor name) (hslash : '/' ∉ name.toList)
    (loader : String) (number : Nat) (path : String) :
    ofRecord record loader number path =
      { name
        internalName := ClassName.internal name
        descriptor := ClassName.descriptor name
        superclass := record.superclass.map nameOf
        interfaces := record.interfaces.map nameOf
        accessFlags := record.accessFlags
        fields := record.fields
        methods := record.methods
        sourceFile := record.sourceFile
        definingLoader := loader
        imageNumber := number
        imagePath := path } := by
  have hinternal : record.internalName = ClassName.internal name := by
    rw [ClassRecord.internalName, hdescriptor]
    exact ClassName.ofDescriptor_descriptorOf _
  have hname : nameOf record.descriptor = name := by
    rw [nameOf, ← ClassRecord.internalName, hinternal]
    exact (ClassName.dotted_internal_eq_iff name).mpr hslash
  rw [ofRecord, hname, hinternal, hdescriptor]

/-- Where keys do not repeat, a search for a key finds the one item that has it. -/
theorem find?_key_eq_some_iff {α κ : Type} [DecidableEq κ] (key : α → κ) {items : List α}
    (hnodup : (items.map key).Nodup) (k : κ) (a : α) :
    (items.find? fun item => key item = k) = some a ↔ a ∈ items ∧ key a = k := by
  have hsound (found : α) (h : (items.find? fun item => key item = k) = some found) :
      found ∈ items ∧ key found = k :=
    ⟨List.mem_of_find?_eq_some h, by simpa using List.find?_some h⟩
  constructor
  · exact hsound a
  · intro h
    obtain ⟨hmem, hkey⟩ := h
    cases hfound : items.find? fun item => key item = k with
    | none =>
      have hnone := List.find?_eq_none.mp hfound a hmem
      simp [hkey] at hnone
    | some found =>
      obtain ⟨hfoundMem, hfoundKey⟩ := hsound found hfound
      rw [List.inj_on_of_nodup_map hnodup hfoundMem hmem (hfoundKey.trans hkey.symm)]

namespace ContainerImage

theorem lookup_filter_ne {classes : List (String × ClassRecord)} {name other : String}
    (h : name ≠ other) :
    (classes.filter fun entry => entry.1 ≠ other).lookup name = classes.lookup name := by
  induction classes with
  | nil => rfl
  | cons entry classes ih =>
    obtain ⟨key, record⟩ := entry
    by_cases hother : key = other
    · have hname : (name == key) = false := by simpa [hother] using h
      rw [List.filter_cons_of_neg (by simp [hother]), ih, List.lookup_cons, hname]
    · rw [List.filter_cons_of_pos (by simp [hother]), List.lookup_cons, List.lookup_cons, ih]

/-- Putting a record in changes what is found under its own name and nothing else. -/
theorem lookup_insert (classes : List (String × ClassRecord)) (record : ClassRecord)
    (name : String) :
    (insert classes record).lookup name =
      if record.internalName = name then some record else classes.lookup name := by
  by_cases hname : record.internalName = name
  · simp [insert, hname]
  · rw [insert, List.lookup_cons, beq_eq_false_iff_ne.mpr (Ne.symm hname), if_neg hname]
    exact lookup_filter_ne (Ne.symm hname)

theorem lookup_foldl_insert (records : List ClassRecord) (classes : List (String × ClassRecord))
    (name : String) :
    (records.foldl insert classes).lookup name =
      (records.reverse.find? fun record => record.internalName = name).or
        (classes.lookup name) := by
  induction records generalizing classes with
  | nil => rfl
  | cons record records ih =>
    rw [List.foldl_cons, ih, lookup_insert, List.reverse_cons, List.find?_append, Option.or_assoc]
    by_cases hname : record.internalName = name
    · simp [hname]
    · simp [hname]

/-- Of the classes with one internal name an image serves the last. -/
theorem find?_ofBundle (number : Nat) (path : String) (bundle : Bundle) (name loader : String) :
    (ofBundle number path bundle).find? name loader =
      (bundle.classes.reverse.find? fun record => record.internalName = name).map fun record =>
        .ofRecord record loader number path := by
  rw [find?, ofBundle, lookup_foldl_insert, List.lookup_nil, Option.or_none]

theorem resolve_ofBundle (number : Nat) (path : String) (bundle : Bundle) (name loader : String) :
    (ofBundle number path bundle).toImage.resolve name loader =
      match bundle.classes.reverse.find? fun record =>
          record.internalName = ClassName.internal name with
      | none => .error (.classNotFound name (ClassName.internal name) path)
      | some record =>
        if '/' ∈ name.toList then
          .error (.nameMismatch name (ClassName.dotted (ClassName.internal name)))
        else .ok (.ofRecord record loader number path) := by
  have hfind := find?_ofBundle number path bundle (ClassName.internal name) loader
  simp only [Image.resolve, toImage, hfind]
  cases hfound : bundle.classes.reverse.find? fun record =>
      record.internalName = ClassName.internal name with
  | none => rfl
  | some record =>
    have hinternal : record.internalName = ClassName.internal name := by
      simpa using List.find?_some hfound
    have hdotted : (ClassObject.ofRecord record loader number path).name =
        ClassName.dotted (ClassName.internal name) := by
      rw [← hinternal]
      rfl
    simp only [Option.map_some, hdotted, ClassName.dotted_internal_eq_iff, ite_not]

theorem resolve_single (number : Nat) (path : String) (dialect : Dialect) (record : ClassRecord)
    (name loader : String) :
    (ofBundle number path ⟨dialect, [record]⟩).toImage.resolve name loader =
      if record.internalName ≠ ClassName.internal name then
        .error (.classNotFound name (ClassName.internal name) path)
      else if '/' ∈ name.toList then
        .error (.nameMismatch name (ClassName.dotted (ClassName.internal name)))
      else .ok (.ofRecord record loader number path) := by
  rw [resolve_ofBundle]
  by_cases hname : record.internalName = ClassName.internal name
  · simp [hname]
  · simp [hname]

theorem foldl_insert_of_nodup (records : List ClassRecord)
    (h : (records.map ClassRecord.internalName).Nodup) :
    records.foldl insert [] =
      (records.map fun record => (record.internalName, record)).reverse := by
  induction records using List.reverseRecOn with
  | nil => rfl
  | append_singleton records record ih =>
    rw [List.map_append, List.map_singleton, ← List.concat_eq_append, List.nodup_concat] at h
    obtain ⟨hnew, hnodup⟩ := h
    have hkept : ((records.map fun record => (record.internalName, record)).reverse.filter
        fun entry => entry.1 ≠ record.internalName) =
        (records.map fun record => (record.internalName, record)).reverse := by
      rw [List.filter_eq_self]
      intro entry hentry
      obtain ⟨other, hother, rfl⟩ := List.mem_map.mp (List.mem_reverse.mp hentry)
      rw [decide_eq_true_eq]
      intro heq
      exact hnew (heq ▸ List.mem_map_of_mem hother)
    rw [List.foldl_append, List.foldl_cons, List.foldl_nil, ih hnodup, insert, hkept,
      List.map_append, List.map_singleton, List.reverse_append, List.reverse_singleton,
      List.singleton_append]

/-- No class is lost when their internal names differ. -/
theorem size_ofBundle (number : Nat) (path : String) (bundle : Bundle)
    (h : (bundle.classes.map ClassRecord.internalName).Nodup) :
    (ofBundle number path bundle).size = bundle.classes.length := by
  rw [size, ofBundle, foldl_insert_of_nodup bundle.classes h, List.length_reverse, List.length_map]

end ContainerImage

end LiveDex
