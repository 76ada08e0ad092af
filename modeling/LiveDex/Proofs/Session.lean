import LiveDex.Proofs.Verdict

/-!
Sessions: stagings, loads and definitions that share one staging root, in any order, while others
may put files of their own there. Every call gets files of its own. So the paths handed out differ,
staged files keep their content, a staged bundle can be loaded once, and a definition ends as it
would end alone.
-/
namespace LiveDex.Session

open LiveDex.Action Container

/-- What can happen in a session. -/
inductive Event where
  | stage (tag : String) (bundle : Bundle)
  | load (artifact : Staging.Artifact) (flags : UInt32)
  | define (settings : Settings) (currentDirectory : String) (request : Definition.Request)
  /-- Anything else, told by the workspace behind it. -/
  | outside (after : Workspace)

/-- Paths that were handed out, and the bundle that was staged there. -/
structure Issue where
  artifact : Staging.Artifact
  bundle : Bundle
  deriving DecidableEq

def load (artifact : Staging.Artifact) (flags : UInt32) : Action Loading.Error ContainerImage :=
  Loading.load ⟨artifact.rawPath, artifact.optimizedPath, flags⟩

/-- The workspace behind an event. -/
def step (root : String) (before : Workspace) : Event → Workspace
  | .stage tag bundle => (Staging.stage root tag bundle).leaves before
  | .load artifact flags => (load artifact flags).leaves before
  | .define settings currentDirectory request =>
    (define (.standard settings currentDirectory) request).leaves before
  | .outside after => after

def run (root : String) (start : Workspace) (events : List Event) : Workspace :=
  events.foldl (step root) start

/-- Artifacts that definitions asked loaders for between two workspaces. -/
def requested (before after : Workspace) : List Staging.Artifact :=
  (after.requests.drop before.requests.length).map fun request =>
    ⟨request.rawPath, request.optimizedPath⟩

/-- What an event hands out: a staging its result, and a definition what it asks the loader for. -/
def issues (root : String) (before : Workspace) (event : Event) : List Issue :=
  match event with
  | .stage tag bundle =>
    match (Staging.stage root tag bundle).result before with
    | .ok artifact => [⟨artifact, bundle⟩]
    | .error _ => []
  | .define _ _ request =>
    match lower .pinned request.source with
    | .ok record => (requested before (step root before event)).map fun artifact =>
        ⟨artifact, Definition.bundleOf record⟩
    | .error _ => []
  | .load _ _ | .outside _ => []

/-- Artifacts that an event tries to load. -/
def attempts (root : String) (before : Workspace) (event : Event) : List Staging.Artifact :=
  match event with
  | .load artifact _ => [artifact]
  | .define _ _ _ => requested before (step root before event)
  | .stage _ _ | .outside _ => []

/-- What the events tell one after the other, each from the workspace it happens in. -/
def collect {α : Type} (root : String) (tell : Workspace → Event → List α) (start : Workspace) :
    List Event → List α
  | [] => []
  | event :: rest => tell start event ++ collect root tell (step root start event) rest

def issued (root : String) (start : Workspace) (events : List Event) : List Issue :=
  collect root (issues root) start events

def attempted (root : String) (start : Workspace) (events : List Event) : List Staging.Artifact :=
  collect root (attempts root) start events

theorem run_concat (root : String) (start : Workspace) (front : List Event) (event : Event) :
    run root start (front ++ [event]) = step root (run root start front) event :=
  List.foldl_concat ..

theorem collect_concat {α : Type} (root : String) (tell : Workspace → Event → List α)
    (start : Workspace) (front : List Event) (event : Event) :
    collect root tell start (front ++ [event]) =
      collect root tell start front ++ tell (run root start front) event := by
  induction front generalizing start with
  | nil => simp [collect, run]
  | cons first rest ih =>
    simp only [List.cons_append, collect, ih, List.append_assoc]
    rfl

theorem issued_concat (root : String) (start : Workspace) (front : List Event) (event : Event) :
    issued root start (front ++ [event]) =
      issued root start front ++ issues root (run root start front) event :=
  collect_concat ..

theorem attempted_concat (root : String) (start : Workspace) (front : List Event) (event : Event) :
    attempted root start (front ++ [event]) =
      attempted root start front ++ attempts root (run root start front) event :=
  collect_concat ..

/-- A tag whose raw file is not there yet. -/
structure Fresh (root : String) (files : Volume) (tag : String) : Prop where
  own : Staging.IsOwnTag tag
  free : files.exists? (Staging.artifact root tag).rawPath = false

/-- Others neither take away nor change anything, and make no optimized files. -/
structure Respects (root : String) (before after : Volume) : Prop where
  keeps : before.Keeps after
  optimized : ∀ tag, Staging.IsOwnTag tag →
    after.exists? (Staging.artifact root tag).optimizedPath =
      before.exists? (Staging.artifact root tag).optimizedPath

/-- What may happen after the events so far: tags are new, and what is loaded was handed out. -/
def Allowed (root : String) (start : Workspace) (front : List Event) : Event → Prop
  | .stage tag _ => Fresh root (run root start front).files tag
  | .load artifact _ => ∃ issue ∈ issued root start front, issue.artifact = artifact
  | .define settings currentDirectory request =>
    Staging.rootOf currentDirectory settings = .ok root ∧
      Fresh root (run root start front).files request.tag
  | .outside after => Respects root (run root start front).files after.files

/-- A session starts where the root is a directory without optimized files. -/
inductive Reaches (root : String) (start : Workspace) : List Event → Prop
  | nil (directory : start.files.IsDirectory root)
      (unused : ∀ tag, Staging.IsOwnTag tag →
        start.files.exists? (Staging.artifact root tag).optimizedPath = false) :
      Reaches root start []
  | concat {front : List Event} {event : Event} (before : Reaches root start front)
      (allowed : Allowed root start front event) : Reaches root start (front ++ [event])

/-- Every file in its place: those handed out are as they were staged, and the optimized files are
those of valid bundles that were loaded. -/
structure Holds (root : String) (files : Volume) (issued : List Issue)
    (attempted : List Staging.Artifact) : Prop where
  directory : files.IsDirectory root
  distinct : (issued.map Issue.artifact).Nodup
  named : ∀ issue ∈ issued, ∃ tag, Staging.IsOwnTag tag ∧
    issue.artifact = Staging.artifact root tag
  kept : ∀ issue ∈ issued, ∃ bytes, issue.bundle.encode = .ok bytes ∧
    files.read issue.artifact.rawPath = .ok bytes
  onlyIssued : ∀ artifact ∈ attempted, ∃ issue ∈ issued, issue.artifact = artifact
  optimized : ∀ tag, Staging.IsOwnTag tag →
    (files.exists? (Staging.artifact root tag).optimizedPath = true ↔
      ∃ issue ∈ issued, issue.artifact = Staging.artifact root tag ∧
        issue.artifact ∈ attempted ∧ Valid issue.bundle)

namespace Holds

variable {root : String} {files after : Volume} {issued : List Issue}
  {attempted : List Staging.Artifact} {issue : Issue} {tag : String}

theorem issue_eq (h : Holds root files issued attempted) {issue' : Issue} (hissue : issue ∈ issued)
    (hissue' : issue' ∈ issued) (hartifact : issue.artifact = issue'.artifact) : issue = issue' :=
  List.inj_on_of_nodup_map h.distinct hissue hissue' hartifact

/-- An issue is known by either of its paths. -/
theorem issue_eq_of_path (h : Holds root files issued attempted) {path : Staging.Artifact → String}
    (hpath : ∀ tag tag', path (Staging.artifact root tag) = path (Staging.artifact root tag') →
      tag = tag') {issue' : Issue} (hissue : issue ∈ issued) (hissue' : issue' ∈ issued)
    (heq : path issue.artifact = path issue'.artifact) : issue = issue' := by
  obtain ⟨tag, -, htag⟩ := h.named issue hissue
  obtain ⟨tag', -, htag'⟩ := h.named issue' hissue'
  rw [htag, htag'] at heq
  have hsame := hpath tag tag' heq
  rw [← hsame] at htag'
  exact h.issue_eq hissue hissue' (htag.trans htag'.symm)

theorem nodup_paths (h : Holds root files issued attempted) :
    (issued.map (fun issue => issue.artifact.rawPath) ++
      issued.map (fun issue => issue.artifact.optimizedPath)).Nodup := by
  have hnodup : issued.Nodup := h.distinct.of_map
  have hraw (tag tag' : String) (heq : (Staging.artifact root tag).rawPath =
      (Staging.artifact root tag').rawPath) : tag = tag' :=
    Staging.rawName_inj (Path.push_right_inj heq)
  have hoptimized (tag tag' : String) (heq : (Staging.artifact root tag).optimizedPath =
      (Staging.artifact root tag').optimizedPath) : tag = tag' :=
    Staging.optimizedName_inj (Path.push_right_inj heq)
  refine List.Nodup.append ?_ ?_ ?_
  · exact hnodup.map_on fun _ hissue _ hissue' => h.issue_eq_of_path hraw hissue hissue'
  · exact hnodup.map_on fun _ hissue _ hissue' => h.issue_eq_of_path hoptimized hissue hissue'
  · intro path hmem hmem'
    obtain ⟨issue, hissue, hpath⟩ := List.mem_map.mp hmem
    obtain ⟨issue', hissue', hpath'⟩ := List.mem_map.mp hmem'
    obtain ⟨tag, hown, htag⟩ := h.named issue hissue
    obtain ⟨tag', -, htag'⟩ := h.named issue' hissue'
    rw [htag] at hpath
    rw [htag'] at hpath'
    exact hown.rawName_ne tag' (Path.push_right_inj (hpath.trans hpath'.symm))

theorem kept_of_keeps (h : Holds root files issued attempted) (hkeeps : files.Keeps after) :
    ∀ issue ∈ issued, ∃ bytes, issue.bundle.encode = .ok bytes ∧
      after.read issue.artifact.rawPath = .ok bytes := by
  intro issue hissue
  obtain ⟨bytes, hencode, hread⟩ := h.kept issue hissue
  exact ⟨bytes, hencode, hkeeps.read hread⟩

theorem onlyIssued_concat (h : Holds root files issued attempted) (hissue : issue ∈ issued) :
    ∀ artifact ∈ attempted ++ [issue.artifact], ∃ issue ∈ issued, issue.artifact = artifact := by
  intro artifact hartifact
  rcases List.mem_append.mp hartifact with hold | hlast
  · exact h.onlyIssued artifact hold
  · exact ⟨issue, hissue, (List.mem_singleton.mp hlast).symm⟩

/-- A fresh tag was never handed out. -/
theorem not_issued (h : Holds root files issued attempted) (hfresh : Fresh root files tag)
    (hissue : issue ∈ issued) : issue.artifact ≠ Staging.artifact root tag := by
  intro heq
  obtain ⟨bytes, -, hread⟩ := h.kept issue hissue
  rw [heq] at hread
  have htaken := Volume.exists?_of_read hread
  rw [hfresh.free] at htaken
  cases htaken

theorem usable (h : Holds root files issued attempted) (hfresh : Fresh root files tag) :
    Staging.Usable files root tag where
  isTag := hfresh.own.toIsTag
  directory := h.directory
  rawFree := hfresh.free
  optimizedFree := by
    rw [Bool.eq_false_iff]
    intro htaken
    obtain ⟨issue, hissue, hartifact, -⟩ := (h.optimized tag hfresh.own).mp htaken
    exact h.not_issued hfresh hissue hartifact

/-- A raw file with a fresh tag is one more file that was handed out. -/
theorem staged (h : Holds root files issued attempted) (hfresh : Fresh root files tag)
    {bundle : Bundle} {bytes : Bytes} (hencode : bundle.encode = .ok bytes)
    (hcreate : files.createFile (Staging.artifact root tag).rawPath bytes = .ok after) :
    Holds root after (issued ++ [⟨Staging.artifact root tag, bundle⟩]) attempted := by
  have hkeeps := Volume.keeps_of_createFile hcreate
  have hnew : Staging.artifact root tag ∉ issued.map Issue.artifact := by
    intro hmem
    obtain ⟨issue, hissue, hartifact⟩ := List.mem_map.mp hmem
    exact h.not_issued hfresh hissue hartifact
  refine ⟨hkeeps.isDirectory h.directory, ?_, ?_, ?_, ?_, ?_⟩
  · rw [List.map_append]
    exact h.distinct.append (List.nodup_singleton _) (List.disjoint_singleton.mpr hnew)
  · intro issue hissue
    rcases List.mem_append.mp hissue with hold | hlast
    · exact h.named issue hold
    · obtain rfl := List.mem_singleton.mp hlast
      exact ⟨tag, hfresh.own, rfl⟩
  · intro issue hissue
    rcases List.mem_append.mp hissue with hold | hlast
    · exact h.kept_of_keeps hkeeps issue hold
    · obtain rfl := List.mem_singleton.mp hlast
      exact ⟨bytes, hencode, Volume.read_of_createFile hcreate⟩
  · intro artifact hartifact
    obtain ⟨issue, hissue, heq⟩ := h.onlyIssued artifact hartifact
    exact ⟨issue, List.mem_append_left _ hissue, heq⟩
  · intro other hother
    have hsame : after.exists? (Staging.artifact root other).optimizedPath =
        files.exists? (Staging.artifact root other).optimizedPath :=
      h.directory.exists?_of_createFile (Staging.isFileName_rawName hfresh.own.toIsTag) bytes
        (Staging.isFileName_optimizedName hother.toIsTag) (hfresh.own.rawName_ne other).symm hcreate
    rw [hsame]
    refine (h.optimized other hother).trans ⟨?_, ?_⟩
    · rintro ⟨issue, hissue, hrest⟩
      exact ⟨issue, List.mem_append_left _ hissue, hrest⟩
    · rintro ⟨issue, hissue, hartifact, hattempted, hvalid⟩
      rcases List.mem_append.mp hissue with hold | hlast
      · exact ⟨issue, hold, hartifact, hattempted, hvalid⟩
      · obtain rfl := List.mem_singleton.mp hlast
        obtain ⟨found, hfound, heq⟩ := h.onlyIssued _ hattempted
        exact absurd heq (h.not_issued hfresh hfound)

/-- An attempt that creates nothing: the bundle is not valid, or it was loaded before. -/
theorem attempt (h : Holds root files issued attempted) (hissue : issue ∈ issued)
    (hopened : Valid issue.bundle → issue.artifact ∈ attempted) :
    Holds root files issued (attempted ++ [issue.artifact]) := by
  refine ⟨h.directory, h.distinct, h.named, h.kept, h.onlyIssued_concat hissue, ?_⟩
  intro tag htag
  refine (h.optimized tag htag).trans ⟨?_, ?_⟩
  · rintro ⟨found, hfound, hartifact, hattempted, hvalid⟩
    exact ⟨found, hfound, hartifact, List.mem_append_left _ hattempted, hvalid⟩
  · rintro ⟨found, hfound, hartifact, hattempted, hvalid⟩
    refine ⟨found, hfound, hartifact, ?_, hvalid⟩
    rcases List.mem_append.mp hattempted with hold | hlast
    · exact hold
    · obtain rfl := h.issue_eq hfound hissue (List.mem_singleton.mp hlast)
      exact hopened hvalid

/-- An attempt that creates the optimized file. -/
theorem opened (h : Holds root files issued attempted) (hissue : issue ∈ issued)
    (hvalid : Valid issue.bundle) {content : Bytes}
    (hcreate : files.createFile issue.artifact.optimizedPath content = .ok after) :
    Holds root after issued (attempted ++ [issue.artifact]) := by
  have hkeeps := Volume.keeps_of_createFile hcreate
  obtain ⟨tag, hown, htag⟩ := h.named issue hissue
  refine ⟨hkeeps.isDirectory h.directory, h.distinct, h.named, h.kept_of_keeps hkeeps,
    h.onlyIssued_concat hissue, ?_⟩
  intro other hother
  by_cases heq : other = tag
  · rw [heq, ← htag]
    have hthere := Volume.exists?_of_read (Volume.read_of_createFile hcreate)
    exact ⟨fun _ => ⟨issue, hissue, rfl, by simp, hvalid⟩, fun _ => hthere⟩
  · rw [htag] at hcreate
    have hne : Staging.optimizedName (Staging.rawName other) ≠
        Staging.optimizedName (Staging.rawName tag) :=
      fun hname => heq (Staging.optimizedName_inj hname)
    have hsame : after.exists? (Staging.artifact root other).optimizedPath =
        files.exists? (Staging.artifact root other).optimizedPath :=
      h.directory.exists?_of_createFile (Staging.isFileName_optimizedName hown.toIsTag) content
        (Staging.isFileName_optimizedName hother.toIsTag) hne hcreate
    rw [hsame]
    refine (h.optimized other hother).trans ⟨?_, ?_⟩
    · rintro ⟨found, hfound, hartifact, hattempted, hloaded⟩
      exact ⟨found, hfound, hartifact, List.mem_append_left _ hattempted, hloaded⟩
    · rintro ⟨found, hfound, hartifact, hattempted, hloaded⟩
      refine ⟨found, hfound, hartifact, ?_, hloaded⟩
      rcases List.mem_append.mp hattempted with hold | hlast
      · exact hold
      · have hboth := hartifact.symm.trans ((List.mem_singleton.mp hlast).trans htag)
        exact absurd (Staging.artifact_inj hboth) heq

theorem outside (h : Holds root files issued attempted) (hrespects : Respects root files after) :
    Holds root after issued attempted where
  directory := hrespects.keeps.isDirectory h.directory
  distinct := h.distinct
  named := h.named
  kept := h.kept_of_keeps hrespects.keeps
  onlyIssued := h.onlyIssued
  optimized := by
    intro tag htag
    rw [hrespects.optimized tag htag]
    exact h.optimized tag htag

/-- A load either finds the bundle not valid, or finds it loaded before, or opens it. -/
theorem load_runs {before : Workspace} (h : Holds root before.files issued attempted)
    (hissue : issue ∈ issued) (flags : UInt32) :
    (¬ Valid issue.bundle ∧ ∃ e, (load issue.artifact flags).Runs before
      (.error (.validation issue.artifact.rawPath e)) before) ∨
    (Valid issue.bundle ∧ issue.artifact ∈ attempted ∧ (load issue.artifact flags).Runs before
      (.error (.file issue.artifact.optimizedPath .alreadyExists)) before) ∨
    (Valid issue.bundle ∧ issue.artifact ∉ attempted ∧
      ∃ after content, before.files.createFile issue.artifact.optimizedPath content =
          .ok after.files ∧
        (load issue.artifact flags).Runs before (.ok (ContainerImage.ofBundle
          (before.imagesOpened + 1) issue.artifact.optimizedPath issue.bundle)) after) := by
  obtain ⟨bytes, hencode, hread⟩ := h.kept issue hissue
  obtain ⟨tag, hown, htag⟩ := h.named issue hissue
  have hname := Staging.isFileName_optimizedName hown.toIsTag
  have hsize := ((encode_eq_ok_iff _ _).mp hencode).1
  rw [← length_of_encode hencode] at hsize
  by_cases hvalid : Valid issue.bundle
  · have hverify : Loading.verify issue.artifact.rawPath bytes = .ok issue.bundle :=
      Loading.verify_of_valid hencode hvalid
    by_cases hattempted : issue.artifact ∈ attempted
    · have htaken := (h.optimized tag hown).mpr ⟨issue, hissue, htag, hattempted, hvalid⟩
      have hcreate := h.directory.createFile_of_taken hname (Optimized.wrap flags bytes) htaken
      refine Or.inr (Or.inl ⟨hvalid, hattempted, ?_⟩)
      rw [htag] at hread hverify ⊢
      exact Loading.load_runs_unwritten hread hverify hsize hcreate
    · have hfree : before.files.exists? (Staging.artifact root tag).optimizedPath = false := by
        rw [Bool.eq_false_iff]
        intro htaken
        obtain ⟨found, hfound, hartifact, hmem, -⟩ := (h.optimized tag hown).mp htaken
        exact hattempted (htag.trans hartifact.symm ▸ hmem)
      obtain ⟨loaded, hcreate⟩ :=
        h.directory.createFile_of_free hname (Optimized.wrap flags bytes) hfree
      refine Or.inr (Or.inr ⟨hvalid, hattempted, ?_⟩)
      rw [htag] at hread hverify ⊢
      refine ⟨_, Optimized.wrap flags bytes, ?_,
        Loading.load_runs_ok hread hverify hsize hcreate⟩
      exact hcreate
  · obtain ⟨e, hverify⟩ := Loading.verify_of_not_valid hencode hvalid
    exact Or.inl ⟨hvalid, e, Loading.load_runs_invalid hread (hverify issue.artifact.rawPath)⟩

end Holds

theorem requested_of_eq {before after : Workspace} (h : after.requests = before.requests) :
    requested before after = [] := by
  simp [requested, h]

theorem requested_of_append {before after : Workspace} {request : LoadRequest}
    (h : after.requests = before.requests ++ [request]) :
    requested before after = [⟨request.rawPath, request.optimizedPath⟩] := by
  simp [requested, h]

/-- Whatever is allowed to happen keeps every file in its place. -/
theorem holds_step {root : String} {start : Workspace} {front : List Event} {event : Event}
    (h : Holds root (run root start front).files (issued root start front)
      (attempted root start front)) (hallowed : Allowed root start front event) :
    Holds root (run root start (front ++ [event])).files (issued root start (front ++ [event]))
      (attempted root start (front ++ [event])) := by
  rw [run_concat, issued_concat, attempted_concat]
  cases event with
  | stage tag bundle =>
    cases hencode : bundle.encode with
    | error e =>
      have hruns : (Staging.stage root tag bundle).Runs (run root start front) _ _ :=
        Staging.stage_runs_unencoded hencode
      simpa only [step, issues, attempts, hruns.leaves_eq, hruns.result_eq, List.append_nil] using h
    | ok bytes =>
      obtain ⟨staged, hcreate, -⟩ := (h.usable hallowed).createFile bytes
      have hruns := Staging.stage_runs hencode hcreate
      simp only [step, issues, attempts, hruns.leaves_eq, hruns.result_eq, List.append_nil]
      exact h.staged hallowed hencode hcreate
  | load artifact flags =>
    obtain ⟨issue, hissue, rfl⟩ := hallowed
    simp only [step, issues, attempts, List.append_nil]
    rcases h.load_runs hissue flags with ⟨hinvalid, e, hruns⟩ | ⟨-, hagain, hruns⟩ |
      ⟨hvalid, -, after, content, hcreate, hruns⟩
    · rw [hruns.leaves_eq]
      exact h.attempt hissue (fun hvalid => absurd hvalid hinvalid)
    · rw [hruns.leaves_eq]
      exact h.attempt hissue (fun _ => hagain)
    · rw [hruns.leaves_eq]
      exact h.opened hissue hvalid hcreate
  | define settings currentDirectory request =>
    obtain ⟨hroot, hfresh⟩ := hallowed
    obtain ⟨after, hruns, htraces⟩ := Definition.define_runs_verdict request hroot (h.usable hfresh)
    simp only [issues, attempts, step, hruns.leaves_eq]
    rcases htraces with ⟨hfiles, hrequests⟩ | ⟨record, bytes, staged, hlower, hencode, hcreate,
      hrequests, hload⟩
    · rw [requested_of_eq hrequests, hfiles]
      cases lower .pinned request.source <;> simpa using h
    · rw [requested_of_append hrequests, hlower]
      have hstaged := h.staged hfresh hencode hcreate
      have hmem : (⟨Staging.artifact root request.tag, Definition.bundleOf record⟩ : Issue) ∈
          issued root start front ++ [⟨Staging.artifact root request.tag,
            Definition.bundleOf record⟩] :=
        List.mem_append_right _ (List.mem_singleton_self _)
      rcases hload with ⟨hinvalid, hfiles⟩ | ⟨hvalid, hoptimized⟩
      · rw [hfiles]
        exact hstaged.attempt hmem (fun hvalid => absurd hvalid hinvalid)
      · exact hstaged.opened hmem hvalid hoptimized
  | outside after =>
    simp only [step, issues, attempts, List.append_nil]
    exact h.outside hallowed

theorem holds_of_reaches {root : String} {start : Workspace} {events : List Event}
    (h : Reaches root start events) :
    Holds root (run root start events).files (issued root start events)
      (attempted root start events) := by
  induction h with
  | nil directory unused =>
    refine ⟨directory, List.nodup_nil, by simp [issued, collect], by simp [issued, collect],
      by simp [attempted, collect], ?_⟩
    intro tag htag
    simp [run, issued, collect, unused tag htag]
  | concat _ allowed ih => exact holds_step ih allowed

/-- Every event of a session was allowed where it happened. -/
theorem Reaches.split {root : String} {start : Workspace} {events front back : List Event}
    {event : Event} (h : Reaches root start events) (hevents : events = front ++ event :: back) :
    Reaches root start front ∧ Allowed root start front event := by
  induction h generalizing back with
  | nil => simp at hevents
  | @concat done last before allowed ih =>
    rcases List.eq_nil_or_concat back with rfl | ⟨rest, final, rfl⟩
    · obtain ⟨rfl, hlast⟩ := List.append_inj' hevents rfl
      cases hlast
      exact ⟨before, allowed⟩
    · rw [List.concat_eq_append, ← List.cons_append, ← List.append_assoc] at hevents
      exact ih (List.append_inj' hevents rfl).1

/-- A staged bundle can be loaded once. Another attempt, or one with a bundle that is not valid,
fails and leaves all as it was. -/
def LoadsOnce (before : Workspace) (attempted : List Staging.Artifact) (issue : Issue)
    (flags : UInt32) : Prop :=
  (Valid issue.bundle → issue.artifact ∉ attempted →
    (load issue.artifact flags).result before = .ok (ContainerImage.ofBundle
      (before.imagesOpened + 1) issue.artifact.optimizedPath issue.bundle)) ∧
  (Valid issue.bundle → issue.artifact ∈ attempted →
    (load issue.artifact flags).result before =
      .error (.file issue.artifact.optimizedPath .alreadyExists) ∧
    (load issue.artifact flags).leaves before = before) ∧
  (¬ Valid issue.bundle →
    (∃ e, (load issue.artifact flags).result before =
      .error (.validation issue.artifact.rawPath e)) ∧
    (load issue.artifact flags).leaves before = before)

/-- A definition ends as in any empty directory and with any tag, but for the image and the name
of the raw file. If it stages a valid bundle, the image that it looks into has that bundle. -/
def EndsAsAlone (root : String) (before : Workspace) (settings : Settings)
    (currentDirectory : String) (request : Definition.Request) : Prop :=
  (∀ settings' currentDirectory' root' tag alone,
    Staging.rootOf currentDirectory' settings' = .ok root' → Staging.IsOwnTag tag →
    Volume.list alone.files root' = .ok [] →
    Definition.withoutImage
        ((define (.standard settings currentDirectory) request).result before) =
      Definition.renamed (Staging.artifact root' tag).rawPath
        (Staging.artifact root request.tag).rawPath
        (Definition.withoutImage
          ((define (.standard settings' currentDirectory') { request with tag }).result alone))) ∧
  ∀ record bytes, lower .pinned request.source = .ok record →
    (Definition.bundleOf record).encode = .ok bytes → Valid (Definition.bundleOf record) →
    (define (.standard settings currentDirectory) request).result before =
      ((ContainerImage.ofBundle (before.imagesOpened + 1)
        (Staging.artifact root request.tag).optimizedPath
        (Definition.bundleOf record)).toImage.resolve request.source.name
          request.loader).mapError .resolution

theorem loadsOnce {root : String} {before : Workspace} {issued : List Issue}
    {attempted : List Staging.Artifact} {issue : Issue}
    (h : Holds root before.files issued attempted) (hissue : issue ∈ issued) (flags : UInt32) :
    LoadsOnce before attempted issue flags := by
  rcases h.load_runs hissue flags with ⟨hinvalid, e, hruns⟩ | ⟨hvalid, hagain, hruns⟩ |
    ⟨hvalid, hfirst, after, content, -, hruns⟩
  · exact ⟨fun hvalid => absurd hvalid hinvalid, fun hvalid => absurd hvalid hinvalid,
      fun _ => ⟨⟨e, hruns.result_eq⟩, hruns.leaves_eq⟩⟩
  · exact ⟨fun _ hfirst => absurd hagain hfirst, fun _ _ => ⟨hruns.result_eq, hruns.leaves_eq⟩,
      fun hinvalid => absurd hvalid hinvalid⟩
  · exact ⟨fun _ _ => hruns.result_eq, fun _ hagain => absurd hagain hfirst,
      fun hinvalid => absurd hvalid hinvalid⟩

theorem usable_of_list_nil {root tag : String} {files : Volume} (htag : Staging.IsOwnTag tag)
    (h : files.list root = .ok []) : Staging.Usable files root tag where
  isTag := htag.toIsTag
  directory := Volume.isDirectory_of_list_nil h
  rawFree := Volume.exists?_of_list_nil h (Staging.isFileName_rawName htag.toIsTag)
  optimizedFree := Volume.exists?_of_list_nil h (Staging.isFileName_optimizedName htag.toIsTag)

theorem endsAsAlone {root : String} {before : Workspace} {settings : Settings}
    {currentDirectory : String} {request : Definition.Request}
    (hroot : Staging.rootOf currentDirectory settings = .ok root)
    (husable : Staging.Usable before.files root request.tag) :
    EndsAsAlone root before settings currentDirectory request := by
  obtain ⟨after, hruns, -⟩ := Definition.define_runs_verdict request hroot husable
  refine ⟨?_, ?_⟩
  · intro settings' currentDirectory' root' tag alone hroot' htag hempty
    obtain ⟨after', hruns', -⟩ := Definition.define_runs_verdict { request with tag } hroot'
      (usable_of_list_nil htag hempty)
    rw [hruns.result_eq, hruns'.result_eq]
    exact Definition.withoutImage_verdict ..
  · intro record bytes hlower hencode hvalid
    rw [hruns.result_eq]
    simp only [Definition.verdict, hlower, hencode, Loading.verify_of_valid hencode hvalid]

def sampleBundle : Bundle :=
  Definition.bundleOf Definition.sampleRecord

def sampleArtifact : Staging.Artifact :=
  Staging.artifact "/t/" "a1"

def sampleStart : Workspace :=
  { files := ⟨[(["t"], .directory)]⟩ }

def sampleSettings : Settings :=
  { compilePath := some "t/" }

def sampleStaged : List Event :=
  [.stage "a1" sampleBundle]

def sampleLoaded : List Event :=
  sampleStaged ++ [.load sampleArtifact 0]

def sampleDefined : List Event :=
  sampleLoaded ++ [.define sampleSettings "/" Definition.sampleRequest]

/-- A session with a staging, a load, a definition and the load once more. -/
theorem reaches_sampleDefined :
    Reaches "/t/" sampleStart (sampleDefined ++ [.load sampleArtifact 7]) := by
  have hempty : sampleStart.files.list "/t/" = .ok [] := by decide
  have hnil : Reaches "/t/" sampleStart [] :=
    .nil (Volume.isDirectory_of_list_nil hempty) fun tag htag =>
      Volume.exists?_of_list_nil hempty (Staging.isFileName_optimizedName htag.toIsTag)
  have hstaged : Reaches "/t/" sampleStart sampleStaged :=
    hnil.concat ⟨Staging.isOwnTag_of_isAlphanum (by decide), by decide⟩
  have hissued : sampleArtifact ∈ (issued "/t/" sampleStart sampleStaged).map Issue.artifact := by
    decide +kernel
  have hloaded : Reaches "/t/" sampleStart sampleLoaded :=
    hstaged.concat (List.mem_map.mp hissued)
  have hdefined : Reaches "/t/" sampleStart sampleDefined :=
    hloaded.concat ⟨by decide, Staging.isOwnTag_of_isAlphanum (by decide), by decide +kernel⟩
  have hstill : sampleArtifact ∈ (issued "/t/" sampleStart sampleDefined).map Issue.artifact := by
    decide +kernel
  exact hdefined.concat (List.mem_map.mp hstill)

end LiveDex.Session
