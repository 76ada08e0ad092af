import LiveDex.Volume
import Mathlib.Data.List.Basic

/-!
Paths and files. A name put behind the path of a directory leads into that directory. A file that
is created is there to be read, and all that was there before stays as it was: paths lead where
they led, and files keep their content.
-/
namespace LiveDex

namespace Path

theorem partsFrom_done (part : List Char) (done : List String) (chars : List Char) :
    partsFrom part done chars = done.reverse ++ partsFrom part [] chars := by
  induction chars generalizing part done with
  | nil => simp [partsFrom]
  | cons c rest ih =>
    by_cases hc : c = '/'
    · simp only [partsFrom, if_pos hc]
      rw [ih, ih _ [_]]
      simp
    · simp only [partsFrom, if_neg hc]
      exact ih _ _

theorem partsFrom_slash (part front back : List Char) :
    partsFrom part [] (front ++ '/' :: back) =
      partsFrom part [] front ++ partsFrom [] [] back := by
  induction front generalizing part with
  | nil =>
    simp only [List.nil_append, partsFrom, if_pos]
    exact partsFrom_done _ _ _
  | cons c rest ih =>
    by_cases hc : c = '/'
    · simp only [List.cons_append, partsFrom, if_pos hc]
      rw [partsFrom_done, ih, partsFrom_done _ [_], List.append_assoc]
    · simp only [List.cons_append, partsFrom, if_neg hc]
      exact ih _

theorem partsFrom_name (part name : List Char) (h : '/' ∉ name) :
    partsFrom part [] name = [String.ofList (part.reverse ++ name)] := by
  induction name generalizing part with
  | nil => simp [partsFrom]
  | cons c rest ih =>
    obtain ⟨hc, hrest⟩ : '/' ≠ c ∧ '/' ∉ rest := by simpa only [List.mem_cons, not_or] using h
    rw [partsFrom, if_neg (Ne.symm hc), ih _ hrest]
    simp

/-- Names that a file can have in any directory. -/
structure IsFileName (name : String) : Prop where
  nonempty : name ≠ ""
  slash : '/' ∉ name.toList
  nul : Char.ofNat 0 ∉ name.toList
  here : name ≠ "."
  above : name ≠ ".."

theorem toList_push_eq (path name : String) :
    ∃ front, (push path name).toList = front ++ '/' :: name.toList ∧
      (path.toList = front ++ ['/'] ∨ path.toList = front) := by
  unfold push
  by_cases hend : endsWithSlash path
  · have hlast : path.toList.getLast? = some '/' := by simpa [endsWithSlash] using hend
    obtain ⟨front, hfront⟩ := List.getLast?_eq_some_iff.mp hlast
    refine ⟨front, ?_, Or.inl hfront⟩
    simp [hend, hfront]
  · refine ⟨path.toList, ?_, Or.inr rfl⟩
    simp [hend]

theorem names_push {path name : String} (h : IsFileName name) :
    names (push path name) = names path ++ [name] := by
  obtain ⟨front, hpush, hpath⟩ := toList_push_eq path name
  have hfront : names path = (partsFrom [] [] front).filter fun part => part ≠ "" := by
    unfold names
    rcases hpath with hpath | hpath
    · rw [hpath, partsFrom_slash, List.filter_append]
      simp [partsFrom]
    · rw [hpath]
  rw [hfront]
  unfold names
  rw [hpush, partsFrom_slash, List.filter_append, partsFrom_name _ _ h.slash]
  simp [h.nonempty]

theorem endsWithSlash_push {path name : String} (h : IsFileName name) :
    endsWithSlash (push path name) = false := by
  obtain ⟨front, hpush, -⟩ := toList_push_eq path name
  have hne : name.toList ≠ [] := by simpa using h.nonempty
  unfold endsWithSlash
  rw [hpush, List.getLast?_append_cons, List.getLast?_cons_of_ne_nil hne]
  simp only [decide_eq_false_iff_not]
  intro hlast
  exact h.slash (List.mem_of_getLast? hlast)

theorem push_right_inj {path first second : String} (h : push path first = push path second) :
    first = second := by
  have hlist := congrArg String.toList h
  apply String.toList_inj.mp
  unfold push at hlist
  split at hlist <;> simpa using hlist

end Path

namespace Volume

variable {volume after : Volume} {path root : String} {place : List String}

/-- Whatever is at a place of one volume is there in the other too. -/
def Keeps (volume after : Volume) : Prop :=
  ∀ place node, volume.node? place = some node → after.node? place = some node

theorem Keeps.refl (volume : Volume) : volume.Keeps volume :=
  fun _ _ hnode => hnode

theorem Keeps.trans {between : Volume} (h : volume.Keeps between) (h' : between.Keeps after) :
    volume.Keeps after :=
  fun place node hnode => h' place node (h place node hnode)

theorem Keeps.walk (h : volume.Keeps after) {names target : List String}
    (hwalk : volume.walk place names = .ok target) : after.walk place names = .ok target := by
  induction names generalizing place with
  | nil => exact hwalk
  | cons name rest ih =>
    cases hnode : volume.node? place with
    | none => simp [Volume.walk, hnode] at hwalk
    | some node =>
      cases node with
      | file content => simp [Volume.walk, hnode] at hwalk
      | directory =>
        simp only [Volume.walk, hnode] at hwalk
        simp only [Volume.walk, h place _ hnode]
        exact ih hwalk

theorem locate_eq_ok_iff :
    volume.locate path = .ok place ↔
      path ≠ "" ∧ Char.ofNat 0 ∉ path.toList ∧ volume.walk [] (Path.names path) = .ok place := by
  unfold locate
  split
  · simp_all
  · split <;> simp_all

theorem Keeps.locate (h : volume.Keeps after) (hlocate : volume.locate path = .ok place) :
    after.locate path = .ok place := by
  rw [locate_eq_ok_iff] at hlocate ⊢
  exact ⟨hlocate.1, hlocate.2.1, h.walk hlocate.2.2⟩

theorem walk_snoc {start names : List String} {name : String}
    (hwalk : volume.walk start names = .ok place) (hnode : volume.node? place = some .directory) :
    volume.walk start (names ++ [name]) = .ok (step place name) := by
  induction names generalizing start with
  | nil =>
    obtain rfl : start = place := by simpa [walk] using hwalk
    simp [walk, hnode]
  | cons first rest ih =>
    rw [List.cons_append]
    unfold walk at hwalk ⊢
    split at hwalk
    · cases hwalk
    · cases hwalk
    · exact ih hwalk

/-- A name leads from the path of a directory into the directory. -/
theorem locate_push {name : String} (hname : Path.IsFileName name)
    (hroot : volume.locate root = .ok place) (hnode : volume.node? place = some .directory) :
    volume.locate (Path.push root name) = .ok (place ++ [name]) := by
  obtain ⟨-, hnul, hwalk⟩ := locate_eq_ok_iff.mp hroot
  obtain ⟨front, hpush, hfront⟩ := Path.toList_push_eq root name
  rw [locate_eq_ok_iff, Path.names_push hname, walk_snoc hwalk hnode]
  refine ⟨?_, ?_, ?_⟩
  · intro hempty
    simp [hempty] at hpush
  · rw [hpush]
    simp only [List.mem_append, List.mem_cons, not_or]
    refine ⟨?_, by decide, hname.nul⟩
    rcases hfront with hfront | hfront
    · rw [hfront] at hnul
      simp_all
    · rwa [hfront] at hnul
  · simp [step, hname.here, hname.above]

theorem node?_eq_none (hlocate : volume.locate path = .ok place)
    (hexists : volume.exists? path = false) : volume.node? place = none := by
  simpa [exists?, hlocate] using hexists

/-- What it means that a file was created at a place and nothing else happened. -/
structure Creates (volume : Volume) (place : List String) (content : Bytes) (after : Volume) :
    Prop where
  absent : volume.node? place = none
  made : after.node? place = some (.file content)
  others : ∀ other, other ≠ place → after.node? other = volume.node? other

theorem Creates.keeps {content : Bytes} (h : volume.Creates place content after) :
    volume.Keeps after := by
  intro other node hnode
  by_cases heq : other = place
  · rw [heq, h.absent] at hnode
    cases hnode
  · rwa [h.others other heq]

theorem creates_append {content : Bytes} (habsent : volume.node? place = none) :
    volume.Creates place content ⟨volume.nodes ++ [(place, .file content)]⟩ := by
  have hlookup (other : List String) :
      (⟨volume.nodes ++ [(place, .file content)]⟩ : Volume).node? other =
        (volume.node? other).or (if other = place then some (.file content) else none) := by
    unfold node?
    split
    · rfl
    · rw [List.lookup_append]
      by_cases heq : other = place
      · simp [heq]
      · simp [List.lookup_cons, heq, beq_eq_false_iff_ne.mpr heq]
  refine ⟨habsent, ?_, ?_⟩
  · simp [hlookup, habsent]
  · intro other hother
    simp [hlookup, hother]

theorem createFile_eq_ok_iff {content : Bytes} :
    volume.createFile path content = .ok after ↔
      ∃ place, volume.locate path = .ok place ∧ Path.endsWithSlash path = false ∧
        volume.node? place = none ∧ after = ⟨volume.nodes ++ [(place, .file content)]⟩ := by
  unfold createFile create
  cases volume.locate path with
  | error e => simp
  | ok place =>
    cases hslash : Path.endsWithSlash path with
    | true => simp
    | false => cases hnode : volume.node? place <;> simp [hnode, eq_comm]

theorem creates_of_createFile {content : Bytes} (h : volume.createFile path content = .ok after)
    (hlocate : volume.locate path = .ok place) : volume.Creates place content after := by
  obtain ⟨found, hfound, -, habsent, rfl⟩ := createFile_eq_ok_iff.mp h
  obtain rfl := Except.ok.inj (hfound.symm.trans hlocate)
  exact creates_append habsent

/-- A file is read as it was created. -/
theorem read_of_createFile {content : Bytes} (h : volume.createFile path content = .ok after) :
    after.read path = .ok content := by
  obtain ⟨place, hlocate, hslash, -, -⟩ := createFile_eq_ok_iff.mp h
  have hcreates := creates_of_createFile h hlocate
  simp [read, hcreates.keeps.locate hlocate, hcreates.made, hslash]

theorem Keeps.read (h : volume.Keeps after) {content : Bytes}
    (hread : volume.read path = .ok content) : after.read path = .ok content := by
  unfold Volume.read at hread ⊢
  cases hlocate : volume.locate path with
  | error e => simp [hlocate] at hread
  | ok place =>
    cases hnode : volume.node? place with
    | none => simp [hlocate, hnode] at hread
    | some node => simpa [hlocate, hnode, h.locate hlocate, h place node hnode] using hread

theorem exists?_of_read {content : Bytes} (hread : volume.read path = .ok content) :
    volume.exists? path = true := by
  unfold Volume.read at hread
  unfold exists?
  cases hlocate : volume.locate path with
  | error e => simp [hlocate] at hread
  | ok place => cases hnode : volume.node? place <;> simp_all

theorem keeps_of_createFile {content : Bytes} (h : volume.createFile path content = .ok after) :
    volume.Keeps after := by
  obtain ⟨place, hlocate, -⟩ := createFile_eq_ok_iff.mp h
  exact (creates_of_createFile h hlocate).keeps

/-- The path leads to a directory. -/
def IsDirectory (volume : Volume) (root : String) : Prop :=
  ∃ place, volume.locate root = .ok place ∧ volume.node? place = some .directory

theorem Keeps.isDirectory (h : volume.Keeps after) (hroot : volume.IsDirectory root) :
    after.IsDirectory root := by
  obtain ⟨place, hlocate, hnode⟩ := hroot
  exact ⟨place, h.locate hlocate, h place _ hnode⟩

namespace IsDirectory

variable {name : String} (hroot : volume.IsDirectory root) (hname : Path.IsFileName name)
  (content : Bytes)

include hroot hname

theorem createFile_of_free (hfree : volume.exists? (Path.push root name) = false) :
    ∃ after, volume.createFile (Path.push root name) content = .ok after := by
  obtain ⟨place, hlocate, hnode⟩ := hroot
  have hplace := locate_push hname hlocate hnode
  exact ⟨_, createFile_eq_ok_iff.mpr
    ⟨_, hplace, Path.endsWithSlash_push hname, node?_eq_none hplace hfree, rfl⟩⟩

theorem createFile_of_taken (htaken : volume.exists? (Path.push root name) = true) :
    volume.createFile (Path.push root name) content = .error .alreadyExists := by
  obtain ⟨place, hlocate, hnode⟩ := hroot
  have hplace := locate_push hname hlocate hnode
  have hthere : (volume.node? (place ++ [name])).isSome := by
    simpa [exists?, hplace] using htaken
  obtain ⟨node, hnode⟩ := Option.isSome_iff_exists.mp hthere
  simp [createFile, create, hplace, Path.endsWithSlash_push hname, hnode]

/-- A file that is created in a directory leaves the other names there as they were. -/
theorem exists?_of_createFile {other : String} (hother : Path.IsFileName other)
    (hne : other ≠ name)
    (hcreate : volume.createFile (Path.push root name) content = .ok after) :
    after.exists? (Path.push root other) = volume.exists? (Path.push root other) := by
  obtain ⟨place, hlocate, hnode⟩ := hroot
  have hplace := locate_push hother hlocate hnode
  have hcreates := creates_of_createFile hcreate (locate_push hname hlocate hnode)
  have hsame : after.node? (place ++ [other]) = volume.node? (place ++ [other]) :=
    hcreates.others _ (by simpa using hne)
  simp [exists?, hplace, hcreates.keeps.locate hplace, hsame]

end IsDirectory

theorem isDirectory_of_list_nil (h : volume.list root = .ok []) : volume.IsDirectory root := by
  unfold list at h
  cases hlocate : volume.locate root with
  | error e => simp [hlocate] at h
  | ok place =>
    cases hnode : volume.node? place with
    | none => simp [hlocate, hnode] at h
    | some node =>
      cases node with
      | file content => simp [hlocate, hnode] at h
      | directory => exact ⟨place, hlocate, hnode⟩

/-- No name is taken in a directory that is listed as empty. -/
theorem exists?_of_list_nil (h : volume.list root = .ok []) {name : String}
    (hname : Path.IsFileName name) : volume.exists? (Path.push root name) = false := by
  obtain ⟨place, hlocate, hnode⟩ := isDirectory_of_list_nil h
  have hplace := locate_push hname hlocate hnode
  simp only [list, hlocate, hnode, Except.ok.injEq, List.filterMap_eq_nil_iff] at h
  have hlookup : volume.nodes.lookup (place ++ [name]) = none := by
    rw [List.lookup_eq_none_iff]
    intro entry hentry
    have hlast := h entry hentry
    rw [bne_iff_ne]
    intro heq
    simp [← heq] at hlast
  simp [exists?, hplace, node?, hlookup]

end Volume

end LiveDex
