import LiveDex.Staging
import LiveDex.Proofs.Actions
import LiveDex.Proofs.Files
import LiveDex.Proofs.RoundTrip

/-!
Staging a bundle in a directory. The names of the raw and the optimized file are proper names and
differ, so in a directory where both are free the raw file can be created, and the optimized
file after it.
-/
namespace LiveDex.Staging

/-- Where the files for a tag are. -/
def artifact (root tag : String) : Artifact :=
  ⟨Path.push root (rawName tag), Path.push root (optimizedName (rawName tag))⟩

/-- Tags that may stand in a file name. -/
structure IsTag (tag : String) : Prop where
  slash : '/' ∉ tag.toList
  nul : Char.ofNat 0 ∉ tag.toList

theorem isFileName_of_isTag {start tag : String} (hstart : IsTag start) (htag : IsTag tag) :
    Path.IsFileName (start ++ tag ++ fileEnding) := by
  have hlist : (start ++ tag ++ fileEnding).toList =
      start.toList ++ tag.toList ++ fileEnding.toList := by
    simp only [String.toList_append]
  have hlong : 4 ≤ (start ++ tag ++ fileEnding).toList.length := by
    rw [hlist, List.length_append]
    exact Nat.le_add_left 4 _
  have hne (short : String) (hshort : short.toList.length < 4) :
      start ++ tag ++ fileEnding ≠ short := by
    rintro rfl
    omega
  refine ⟨hne _ (by decide), ?_, ?_, hne _ (by decide), hne _ (by decide)⟩
  · simp only [hlist, List.mem_append, not_or]
    exact ⟨⟨hstart.slash, htag.slash⟩, by decide⟩
  · simp only [hlist, List.mem_append, not_or]
    exact ⟨⟨hstart.nul, htag.nul⟩, by decide⟩

theorem isFileName_rawName {tag : String} (h : IsTag tag) : Path.IsFileName (rawName tag) :=
  isFileName_of_isTag ⟨by decide, by decide⟩ h

theorem optimizedName_rawName (tag : String) :
    optimizedName (rawName tag) = optimizedStart ++ tag ++ fileEnding := by
  have hlist : (rawName tag).toList = rawStart.toList ++ (tag ++ fileEnding).toList := by
    simp only [rawName, String.toList_append, List.append_assoc]
  have hdrop : (rawName tag).toList.drop rawStart.length = (tag ++ fileEnding).toList := by
    rw [hlist]
    rfl
  rw [optimizedName, if_pos, hdrop, String.ofList_toList, String.append_assoc]
  rw [hlist]
  exact List.isPrefixOf_iff_prefix.mpr (List.prefix_append _ _)

theorem isFileName_optimizedName {tag : String} (h : IsTag tag) :
    Path.IsFileName (optimizedName (rawName tag)) := by
  rw [optimizedName_rawName]
  exact isFileName_of_isTag ⟨by decide, by decide⟩ h

theorem rawName_ne_optimizedName (tag : String) : rawName tag ≠ optimizedName (rawName tag) := by
  rw [optimizedName_rawName]
  intro heq
  have hlength := congrArg String.length heq
  simp only [rawName, String.length_append] at hlength
  have hraw : rawStart.length = 5 := rfl
  have hoptimized : optimizedStart.length = 9 := rfl
  omega

/-- Tags that cannot make a raw name look like an optimized one: they have no dash, which
`optimizedStart` has in second place. -/
structure IsOwnTag (tag : String) : Prop extends IsTag tag where
  dash : '-' ∉ tag.toList

theorem isOwnTag_of_isAlphanum {tag : String} (h : tag.toList.all Char.isAlphanum) :
    IsOwnTag tag where
  slash hmem := absurd (List.all_eq_true.mp h _ hmem) (by decide)
  nul hmem := absurd (List.all_eq_true.mp h _ hmem) (by decide)
  dash hmem := absurd (List.all_eq_true.mp h _ hmem) (by decide)

theorem rawName_inj {tag tag' : String} (h : rawName tag = rawName tag') : tag = tag' := by
  have hlist := congrArg String.toList h
  simp only [rawName, String.toList_append, List.append_cancel_left_eq,
    List.append_cancel_right_eq] at hlist
  exact String.toList_inj.mp hlist

theorem optimizedName_inj {tag tag' : String}
    (h : optimizedName (rawName tag) = optimizedName (rawName tag')) : tag = tag' := by
  have hlist := congrArg String.toList h
  simp only [optimizedName_rawName, String.toList_append, List.append_cancel_left_eq,
    List.append_cancel_right_eq] at hlist
  exact String.toList_inj.mp hlist

/-- No raw file takes the name of an optimized file, be it that of another tag. -/
theorem IsOwnTag.rawName_ne {tag : String} (htag : IsOwnTag tag) (other : String) :
    rawName tag ≠ optimizedName (rawName other) := by
  intro heq
  have hlist := congrArg String.toList heq
  have hstart : optimizedStart.toList = rawStart.toList ++ "opt-".toList := by decide
  rw [optimizedName_rawName] at hlist
  simp only [rawName, String.toList_append, hstart, List.append_assoc,
    List.append_cancel_left_eq] at hlist
  have hdash : '-' ∈ tag.toList ++ fileEnding.toList := by
    rw [hlist]
    exact List.mem_append_left _ (by decide)
  rcases List.mem_append.mp hdash with hmem | hmem
  · exact htag.dash hmem
  · exact absurd hmem (by decide)

theorem artifact_inj {root tag tag' : String} (h : artifact root tag = artifact root tag') :
    tag = tag' :=
  rawName_inj (Path.push_right_inj (congrArg Artifact.rawPath h))

/-- Files among which both files for a tag can be created: the root is a directory, and neither
name is taken there. -/
structure Usable (files : Volume) (root tag : String) : Prop where
  isTag : IsTag tag
  directory : ∃ place, files.locate root = .ok place ∧ files.node? place = some .directory
  rawFree : files.exists? (artifact root tag).rawPath = false
  optimizedFree : files.exists? (artifact root tag).optimizedPath = false

theorem Usable.createFile {files : Volume} {root tag : String} (h : Usable files root tag)
    (raw : Bytes) :
    ∃ staged, files.createFile (artifact root tag).rawPath raw = .ok staged ∧
      ∀ optimized, ∃ loaded,
        staged.createFile (artifact root tag).optimizedPath optimized = .ok loaded := by
  have hdirectory : files.IsDirectory root := h.directory
  have hraw := isFileName_rawName h.isTag
  have hoptimized := isFileName_optimizedName h.isTag
  obtain ⟨staged, hcreate⟩ := hdirectory.createFile_of_free hraw raw h.rawFree
  refine ⟨staged, hcreate, ?_⟩
  intro optimized
  have hsame := hdirectory.exists?_of_createFile hraw raw hoptimized
    (rawName_ne_optimizedName tag).symm hcreate
  have hstaged := (Volume.keeps_of_createFile hcreate).isDirectory hdirectory
  exact hstaged.createFile_of_free hoptimized optimized (hsame.trans h.optimizedFree)

open LiveDex.Action

variable {root tag : String} {bundle : Bundle} {before : Workspace}

theorem stage_runs_unencoded {e : Container.EncodeError} (hencode : bundle.encode = .error e) :
    (stage root tag bundle).Runs before (.error (.encode e)) before := by
  have hbytes : bundle.encode.mapError Error.encode = .error (.encode e) := by
    rw [hencode]
    rfl
  exact (runs_ofExcept hbytes).bind_error

/-- The workspace in which the tables of a bundle were described. -/
def described (bundle : Bundle) (before : Workspace) : Workspace :=
  { before with log := before.log ++ [.described (Container.Tables.ofBundle bundle).describe] }

section Encoded

variable {bytes : Bytes} (hencode : bundle.encode = .ok bytes)

include hencode

/-- An encoded bundle is described before its file is created. -/
theorem stage_runs_described {result : Except Error Artifact} {after : Workspace}
    (h : (do
        Action.mapError (.create root (artifact root tag).rawPath)
          (Action.createFile (artifact root tag).rawPath bytes)
        Action.log (.staged bytes.length bundle.classes.length (artifact root tag).rawPath)
        return artifact root tag : Action Error Artifact).Runs (described bundle before)
      result after) :
    (stage root tag bundle).Runs before result after := by
  have hbytes : bundle.encode.mapError Error.encode = .ok bytes := by
    rw [hencode]
    rfl
  unfold stage
  refine (runs_ofExcept hbytes).bind ?_
  simp only [(Container.decode_of_encode hencode).1]
  exact (runs_log _).bind h

theorem stage_runs_uncreated {e : Volume.Error}
    (hcreate : before.files.createFile (artifact root tag).rawPath bytes = .error e) :
    (stage root tag bundle).Runs before (.error (.create root (artifact root tag).rawPath e))
      (described bundle before) := by
  have hfiles : (described bundle before).files.createFile (artifact root tag).rawPath bytes =
      .error e :=
    hcreate
  exact stage_runs_described hencode ((runs_createFile_error hfiles).mapError _).bind_error

theorem stage_runs {files : Volume}
    (hcreate : before.files.createFile (artifact root tag).rawPath bytes = .ok files) :
    (stage root tag bundle).Runs before (.ok (artifact root tag))
      { described bundle before with
        files
        log := (described bundle before).log ++
          [.staged bytes.length bundle.classes.length (artifact root tag).rawPath] } := by
  have hfiles : (described bundle before).files.createFile (artifact root tag).rawPath bytes =
      .ok files :=
    hcreate
  apply stage_runs_described hencode
  exact ((runs_createFile hfiles).mapError _).bind ((runs_log _).bind (runs_pure _))

end Encoded

end LiveDex.Staging
