import LiveDex.Proofs.Residue

/-!
What decides a definition. Among files that do not stand in its way, a definition ends as the
class file, the name and the loader say. Where its files are and how many images were opened before
shows only in the number and path of the image, and in the path of a raw file that was refused.
-/
namespace LiveDex.Definition

open LiveDex.Action Container

/-- How a definition ends whose files can be created at the paths of the artifact. -/
def verdict (source : ClassSource) (loader : String) (artifact : Staging.Artifact)
    (number : Nat) : Except Error ClassObject :=
  match lower .pinned source with
  | .error e => .error (.lowering source.name e)
  | .ok record =>
    match (bundleOf record).encode with
    | .error e => .error (.staging source.name (.encode e))
    | .ok bytes =>
      match Loading.verify artifact.rawPath bytes with
      | .error e => .error (.loading source.name e)
      | .ok bundle =>
        ((ContainerImage.ofBundle number artifact.optimizedPath bundle).toImage.resolve
          source.name loader).mapError .resolution

/-- The result with the number and the path of the image left out. -/
def withoutImage : Except Error ClassObject → Except Error ClassObject
  | .ok object => .ok { object with imageNumber := 0, imagePath := "" }
  | .error (.resolution (.classNotFound name internalName _)) =>
    .error (.resolution (.classNotFound name internalName ""))
  | result => result

/-- The result with the second path in place of the first, if that is the raw file refused. -/
def renamed (path path' : String) : Except Error ClassObject → Except Error ClassObject
  | .error (.loading name (.validation found cause)) =>
    .error (.loading name (.validation (if found = path then path' else found) cause))
  | result => result

theorem renamed_self (path : String) (result : Except Error ClassObject) :
    renamed path path result = result := by
  unfold renamed
  split
  · rw [ite_eq_right_iff.mpr Eq.symm]
  · rfl

theorem withoutImage_resolve (number number' : Nat) (path path' rawPath rawPath' : String)
    (bundle : Bundle) (name loader : String) :
    withoutImage (((ContainerImage.ofBundle number path bundle).toImage.resolve name
        loader).mapError .resolution) =
      renamed rawPath' rawPath (withoutImage (((ContainerImage.ofBundle number' path'
        bundle).toImage.resolve name loader).mapError .resolution)) := by
  simp only [Image.resolve, ContainerImage.toImage, ContainerImage.find?, ContainerImage.ofBundle]
  cases (bundle.classes.foldl ContainerImage.insert []).lookup (ClassName.internal name) with
  | none => rfl
  | some record =>
    by_cases hname : ClassObject.nameOf record.descriptor = name <;>
      simp [ClassObject.ofRecord, hname, Except.mapError, withoutImage, renamed]

/-- Two verdicts on one class differ in the image and in their own raw paths only. -/
theorem withoutImage_verdict (source : ClassSource) (loader : String)
    (artifact artifact' : Staging.Artifact) (number number' : Nat) :
    withoutImage (verdict source loader artifact number) =
      renamed artifact'.rawPath artifact.rawPath
        (withoutImage (verdict source loader artifact' number')) := by
  unfold verdict
  cases lower .pinned source with
  | error e => rfl
  | ok record =>
    cases hencode : (bundleOf record).encode with
    | error e => simp [hencode, withoutImage, renamed]
    | ok bytes =>
      by_cases hvalid : Valid (bundleOf record)
      · simp only [hencode, Loading.verify_of_valid hencode hvalid]
        exact withoutImage_resolve ..
      · obtain ⟨e, hverify⟩ := Loading.verify_of_not_valid hencode hvalid
        simp [hencode, hverify, withoutImage, renamed]

/-- What a definition did among the files: nothing, or it staged its bundle, and opened it if it
could. -/
def Traces (root : String) (request : Request) (before after : Workspace) : Prop :=
  (after.files = before.files ∧ after.requests = before.requests) ∨
    ∃ record bytes staged, lower .pinned request.source = .ok record ∧
      (bundleOf record).encode = .ok bytes ∧
      before.files.createFile (Staging.artifact root request.tag).rawPath bytes = .ok staged ∧
      after.requests = before.requests ++ [loadRequest root request.tag] ∧
      ((¬ Valid (bundleOf record) ∧ after.files = staged) ∨
        (Valid (bundleOf record) ∧
          staged.createFile (Staging.artifact root request.tag).optimizedPath
            (Optimized.wrap 0 bytes) = .ok after.files))

/-- Among files that do not stand in its way, a definition ends with the verdict. -/
theorem define_runs_verdict {settings : Settings} {currentDirectory root : String}
    (request : Request) {before : Workspace}
    (hroot : Staging.rootOf currentDirectory settings = .ok root)
    (husable : Staging.Usable before.files root request.tag) :
    ∃ after, (define (.standard settings currentDirectory) request).Runs before
        (verdict request.source request.loader (Staging.artifact root request.tag)
          (before.imagesOpened + 1)) after ∧ Traces root request before after := by
  cases hlower : lower .pinned request.source with
  | error e =>
    simp only [verdict, hlower]
    exact ⟨_, define_runs (run_runs_unlowered hroot hlower), Or.inl ⟨rfl, rfl⟩⟩
  | ok record =>
    cases hencode : (bundleOf record).encode with
    | error e =>
      simp only [verdict, hlower, hencode]
      exact ⟨_, define_runs (run_runs_unstaged hroot hlower
        (Staging.stage_runs_unencoded hencode)), Or.inl ⟨rfl, rfl⟩⟩
    | ok bytes =>
      obtain ⟨staged, hcreate, hnext⟩ := husable.createFile bytes
      by_cases hvalid : Valid (bundleOf record)
      · have hverify : Loading.verify (Staging.artifact root request.tag).rawPath bytes =
            .ok (bundleOf record) :=
          Loading.verify_of_valid hencode hvalid
        obtain ⟨loaded, hoptimized⟩ := hnext (Optimized.wrap 0 bytes)
        obtain ⟨after, hruns, hends⟩ :=
          define_runs_loaded hroot hlower hencode hcreate hverify hoptimized
        simp only [verdict, hlower, hencode, hverify]
        exact ⟨after, hruns, Or.inr ⟨record, bytes, staged, hlower, hencode, hcreate,
          hends.requests, Or.inr ⟨hvalid, hends.files ▸ hoptimized⟩⟩⟩
      · obtain ⟨e, hrefused⟩ := Loading.verify_of_not_valid hencode hvalid
        have hverify := hrefused (Staging.artifact root request.tag).rawPath
        obtain ⟨after, hruns, hends⟩ := define_runs_invalid hroot hlower hencode hcreate hverify
        simp only [verdict, hlower, hencode, hverify]
        exact ⟨after, hruns, Or.inr ⟨record, bytes, staged, hlower, hencode, hcreate,
          hends.requests, Or.inl ⟨hvalid, hends.files⟩⟩⟩

end LiveDex.Definition
