import LiveDex.Workspace

/-!
How actions run. `Runs` relates an action and the workspace it starts in to its result and the
workspace it leaves behind, and each way to make an action has its rule. An action has exactly one
outcome, so a chain of rules tells all that it does.
-/
namespace LiveDex.Action

variable {ε δ α β : Type} {before between after : Workspace}

def Runs (action : Action ε α) (before : Workspace) (result : Except ε α) (after : Workspace) :
    Prop :=
  action.run.run before = (result, after)

/-- The result of an action that starts in a workspace. -/
def result (action : Action ε α) (workspace : Workspace) : Except ε α :=
  (action.run.run workspace).1

/-- The workspace that an action leaves behind. -/
def leaves (action : Action ε α) (workspace : Workspace) : Workspace :=
  (action.run.run workspace).2

theorem Runs.leaves_eq {action : Action ε α} {result : Except ε α}
    (h : action.Runs before result after) : action.leaves before = after :=
  congrArg Prod.snd h

theorem Runs.result_eq {action : Action ε α} {result : Except ε α}
    (h : action.Runs before result after) : action.result before = result :=
  congrArg Prod.fst h

theorem Runs.bind {first : Action ε α} {next : α → Action ε β} {a : α} {result : Except ε β}
    (hfirst : first.Runs before (.ok a) between) (hnext : (next a).Runs between result after) :
    (first >>= next).Runs before result after := by
  unfold Runs at *
  rw [ExceptT.run_bind, StateT.run_bind, hfirst]
  exact hnext

theorem Runs.bind_error {first : Action ε α} {next : α → Action ε β} {e : ε}
    (hfirst : first.Runs before (.error e) after) :
    (first >>= next).Runs before (.error e) after := by
  unfold Runs at *
  rw [ExceptT.run_bind, StateT.run_bind, hfirst]
  rfl

theorem runs_pure (a : α) : Runs (pure a : Action ε α) before (.ok a) before :=
  rfl

theorem runs_ofExcept {x result : Except ε α} (h : x = result) :
    (ofExcept x).Runs before result before :=
  h ▸ rfl

theorem Runs.mapError {action : Action ε α} {result : Except ε α} (f : ε → δ)
    (h : action.Runs before result after) :
    (action.mapError f).Runs before (result.mapError f) after := by
  unfold Runs at *
  unfold Action.mapError
  rw [ExceptT.run_mk, StateT.run_bind, h]
  rfl

theorem runs_log (event : Log.Event) :
    Runs (log event : Action ε Unit) before (.ok ())
      { before with log := before.log ++ [event] } :=
  rfl

theorem runs_noteRequest (request : LoadRequest) :
    Runs (noteRequest request : Action ε Unit) before (.ok ())
      { before with requests := before.requests ++ [request] } :=
  rfl

theorem runs_readFile {path : String} {result : Except Volume.Error Bytes}
    (h : before.files.read path = result) : (readFile path).Runs before result before :=
  h ▸ rfl

theorem runs_createFile {path : String} {content : Bytes} {files : Volume}
    (h : before.files.createFile path content = .ok files) :
    (createFile path content).Runs before (.ok ()) { before with files } := by
  have hget : Runs (get : Action Volume.Error Workspace) before (.ok before) before := rfl
  refine hget.bind ((runs_ofExcept h).bind ?_)
  rfl

theorem runs_createFile_error {path : String} {content : Bytes} {e : Volume.Error}
    (h : before.files.createFile path content = .error e) :
    (createFile path content).Runs before (.error e) before := by
  have hget : Runs (get : Action Volume.Error Workspace) before (.ok before) before := rfl
  exact hget.bind (runs_ofExcept h).bind_error

theorem runs_nextImage :
    Runs (nextImage : Action ε Nat) before (.ok (before.imagesOpened + 1))
      { before with imagesOpened := before.imagesOpened + 1 } :=
  rfl

end LiveDex.Action
