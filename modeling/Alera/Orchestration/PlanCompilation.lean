/-
# Alera.Orchestration.PlanCompilation -- from a proposal to a frozen plan

A coordinator proposes concrete tasks for the stages of a recipe.  `compile_plan`
(`run_plan_compilation.rs`) checks the proposal, adds to every task the tasks of the
stages that its own stage depends on, and puts the tasks in an order in which
dependencies come first, or reports that there is none.

Only direct dependencies between stages become dependencies between tasks.  That
the order of the stages is kept along whole chains (`stage_chain`) is because every
stage has a task.
-/
import Alera.Orchestration.RecipeFormat

namespace Alera.Orchestration.Recipes

open Theory List
open Cloud (trim byteLength)

set_option autoImplicit false

/-! ## Proposals and plans -/

/-- `WorkflowPlanTask`. -/
structure PlanTask (N : Type) where
  id : Text
  title : Text
  spec : Text
  stageId : Text
  roleId : Text
  dependsOn : List Text
  inputs : Json N
  correctsTaskId : Option Text

/-- `WorkflowRecipeSource`. -/
inductive RecipeSource where
  | builtIn (id : Text)
  | personal (id : Text)
  | project (workspaceId path : Text)
deriving DecidableEq

/-- `WorkflowRecipeSnapshot`. -/
structure RecipeSnapshot (N : Type) where
  version : UInt32
  source : RecipeSource
  recipe : Recipe N
  digest : Text

/-- `WorkflowPlanProposal`; a map is the list of its entries in the order of the keys. -/
structure Proposal (N : Type) where
  objective : Text
  sourceSha : Text
  recipeSource : RecipeSource
  expectedRecipeDigest : Text
  coordinatorProfileId : Text
  roleProfiles : List (Text × Text)
  maxConcurrent : UInt32
  tasks : List (PlanTask N)

/-- `AgentProfileLaunchMode`. -/
inductive LaunchMode where
  | managed
  | command
deriving DecidableEq

/-- `AgentProfile`, as far as a plan looks at it, and the JSON of the whole. -/
structure AgentProfile (N : Type) where
  id : Text
  agentType : Text
  command : Text
  launchMode : LaunchMode
  managedConfig : Option (Json N)
  revision : Int
  serialized : Json N

/-- `RoleContractSnapshot`. -/
structure ContractSnapshot (N : Type) where
  version : UInt32
  contract : RoleContract N
  inputs : Json N
  digest : Text

/-- `FrozenWorkflowTask`. -/
structure FrozenTask (N : Type) where
  task : PlanTask N
  contract : ContractSnapshot N
  profileId : Text

/-- `WorkflowSourceWorkspace`. -/
structure SourceWorkspace where
  workspaceId : Text
  instanceId : Text
  projectId : Text
  path : Text
  projectRepoPath : Text
deriving DecidableEq

/-- `WorkflowPlanSnapshot`. -/
structure PlanSnapshot (N : Type) where
  version : UInt32
  sourceWorkspace : SourceWorkspace
  objective : Text
  sourceSha : Text
  recipe : RecipeSnapshot N
  coordinatorProfileId : Text
  profiles : List (Text × AgentProfile N)
  maxConcurrent : UInt32
  tasks : List (FrozenTask N)
  digest : Text

/-! ### Their JSON -/

section ToValue

variable {N : Type} (lib : Libraries N)

def optionalText (value : Option Text) : Json N := (value.map .str).getD .null

def PlanTask.toValue (task : PlanTask N) : Json N :=
  .obj
    [("id".toList, .str task.id), ("title".toList, .str task.title), ("spec".toList, .str task.spec),
      ("stageId".toList, .str task.stageId), ("roleId".toList, .str task.roleId),
      ("dependsOn".toList, texts task.dependsOn), ("inputs".toList, task.inputs),
      ("correctsTaskId".toList, optionalText task.correctsTaskId)]

def RecipeSource.toValue : RecipeSource → Json N
  | .builtIn id => .obj [("origin".toList, .str "builtIn".toList), ("id".toList, .str id)]
  | .personal id => .obj [("origin".toList, .str "personal".toList), ("id".toList, .str id)]
  | .project workspaceId path =>
    .obj
      [("origin".toList, .str "project".toList), ("workspaceId".toList, .str workspaceId),
        ("path".toList, .str path)]

def RecipeSnapshot.toValue (snapshot : RecipeSnapshot N) : Json N :=
  .obj
    [("version".toList, .num (lib.ofU32 snapshot.version)), ("source".toList, snapshot.source.toValue),
      ("recipe".toList, snapshot.recipe.toValue lib), ("digest".toList, .str snapshot.digest)]

def Proposal.toValue (proposal : Proposal N) : Json N :=
  .obj
    [("objective".toList, .str proposal.objective), ("sourceSha".toList, .str proposal.sourceSha),
      ("recipeSource".toList, proposal.recipeSource.toValue),
      ("expectedRecipeDigest".toList, .str proposal.expectedRecipeDigest),
      ("coordinatorProfileId".toList, .str proposal.coordinatorProfileId),
      ("roleProfiles".toList,
        .obj (proposal.roleProfiles.map fun binding => (binding.1, .str binding.2))),
      ("maxConcurrent".toList, .num (lib.ofU32 proposal.maxConcurrent)),
      ("tasks".toList, .arr (proposal.tasks.map PlanTask.toValue))]

def ContractSnapshot.toValue (snapshot : ContractSnapshot N) : Json N :=
  .obj
    [("version".toList, .num (lib.ofU32 snapshot.version)),
      ("contract".toList, snapshot.contract.toValue lib), ("inputs".toList, snapshot.inputs),
      ("digest".toList, .str snapshot.digest)]

def FrozenTask.toValue (frozen : FrozenTask N) : Json N :=
  .obj
    [("task".toList, frozen.task.toValue), ("contract".toList, frozen.contract.toValue lib),
      ("profileId".toList, .str frozen.profileId)]

def SourceWorkspace.toValue (workspace : SourceWorkspace) : Json N :=
  .obj
    [("workspaceId".toList, .str workspace.workspaceId),
      ("instanceId".toList, .str workspace.instanceId),
      ("projectId".toList, .str workspace.projectId), ("path".toList, .str workspace.path),
      ("projectRepoPath".toList, .str workspace.projectRepoPath)]

/-- The members of a plan's JSON but for the digest. -/
def PlanSnapshot.content (plan : PlanSnapshot N) : List (Text × Json N) :=
  [("version".toList, .num (lib.ofU32 plan.version)),
    ("sourceWorkspace".toList, plan.sourceWorkspace.toValue),
    ("objective".toList, .str plan.objective), ("sourceSha".toList, .str plan.sourceSha),
    ("recipe".toList, plan.recipe.toValue lib),
    ("coordinatorProfileId".toList, .str plan.coordinatorProfileId),
    ("profiles".toList, .obj (plan.profiles.map fun entry => (entry.1, entry.2.serialized))),
    ("maxConcurrent".toList, .num (lib.ofU32 plan.maxConcurrent)),
    ("tasks".toList, .arr (plan.tasks.map (FrozenTask.toValue lib)))]

def PlanSnapshot.toValue (plan : PlanSnapshot N) : Json N :=
  .obj (plan.content lib ++ [("digest".toList, .str plan.digest)])

end ToValue

/-! ## Compilation -/

/-- `WORKFLOW_PLAN_MAX_BYTES`. -/
def workflowPlanMaxBytes : Nat := 1024 * 1024

/-- `WORKFLOW_PLAN_MAX_TASKS`. -/
def workflowPlanMaxTasks : Nat := 128

/-- `workflow_text`. -/
def workflowText (value : Text) (maximum : Nat) : Except String Unit :=
  ensure (acceptableText value maximum) "workflow text is empty, too long or contains NUL"

/-- Equality of the sets that two lists collect into. -/
def sameSet (left right : List Text) : Bool :=
  left.all (right.contains ·) && right.all (left.contains ·)

section Compile

variable {N : Type} (lib : Libraries N)

/-- `WorkflowRecipeSource::validate`. -/
def RecipeSource.validate (source : RecipeSource) (recipeId : Text) : Except String Unit :=
  match source with
  | .builtIn id => named id
  | .personal id => named id
  | .project workspaceId path => do
      ensure (!(workspaceId.isEmpty || byteLength workspaceId > 160))
        "workflow source requires a workspace id"
      artifactPath path
      let file ← orElse (path.dropPrefix? ".alera/workflows/".toList)
        "project workflow source must be in .alera/workflows"
      ensure (!(file.contains '/' || !".yaml".toList.isSuffixOf file))
        "project workflow source must be a direct YAML file"
where
  named (id : Text) : Except String Unit := do
    portableId id
    ensure (id == recipeId) "workflow source id does not match the recipe"

/-- `WorkflowRecipeSnapshot::validate`. -/
def RecipeSnapshot.validate (snapshot : RecipeSnapshot N) : Except String Unit := do
  snapshot.recipe.validate lib
  snapshot.source.validate snapshot.recipe.id
  ensure (snapshot.version == 1 && snapshot.digest == lib.digest (.arr
      [.num (lib.ofU32 snapshot.version), snapshot.source.toValue, snapshot.recipe.toValue lib]))
    "workflow recipe snapshot does not match its frozen contents"

/-- The checks of one profile. -/
def AgentProfile.check (entry : Text × AgentProfile N) : Except String Unit := do
  ensure (!(entry.1 != entry.2.id || entry.2.revision < 0))
    "workflow profile identity or revision is invalid"
  workflowText entry.2.agentType 160
  workflowText entry.2.command 16384
  ensure (!(entry.2.launchMode == .managed && entry.2.managedConfig.isNone))
    "managed workflow profile requires launch configuration"

/-- `validate_selection`. -/
def validateSelection (proposal : Proposal N) (recipe : RecipeSnapshot N)
    (profiles : List (Text × AgentProfile N)) : Except String Unit := do
  boundedJson lib (proposal.toValue lib) workflowPlanMaxBytes
  recipe.validate lib
  workflowText proposal.objective 16384
  ensure (byteLength proposal.sourceSha == 40 &&
      proposal.sourceSha.all fun c => c.isDigit || ('a' ≤ c && c ≤ 'f'))
    "workflow source must be an exact lowercase commit SHA"
  ensure (1 ≤ proposal.maxConcurrent && proposal.maxConcurrent ≤ 16)
    "workflow requires 1-16 concurrent workers"
  ensure (proposal.recipeSource == recipe.source &&
      proposal.expectedRecipeDigest == lib.digest (recipe.recipe.toValue lib))
    "workflow recipe changed; refresh before proposing a plan"
  ensure (sameSet (proposal.roleProfiles.map Prod.fst) (recipe.recipe.roles.map RecipeRole.id))
    "workflow requires exactly one profile binding for every role"
  ensure (sameSet (profiles.map Prod.fst)
      (proposal.coordinatorProfileId :: proposal.roleProfiles.map Prod.snd))
    "workflow references a missing profile"
  checkAll AgentProfile.check profiles

/-- Insertion into a set of texts that is kept in order. -/
def insertText (value : Text) : List Text → List Text
  | [] => [value]
  | other :: rest =>
    if value = other then other :: rest
    else if value < other then value :: other :: rest
    else other :: insertText value rest

/-- The loop over the declared dependencies of a task. -/
def declaredDependencies (taskId : Text) (ids : List Text) :
    List Text → List Text → Except String (List Text)
  | dependencies, [] => .ok dependencies
  | dependencies, dependency :: rest => do
      ensure (!(dependency == taskId || !ids.contains dependency || dependencies.contains dependency))
        "workflow task dependency is missing, duplicated or self-referential"
      declaredDependencies taskId ids (insertText dependency dependencies) rest

/-- The dependencies that the order of the stages adds. -/
def stageDependencies (stage : RecipeStage) (tasks : List (PlanTask N)) (dependencies : List Text) :
    List Text :=
  tasks.foldl (fun dependencies predecessor =>
    if stage.dependsOn.contains predecessor.stageId then insertText predecessor.id dependencies
    else dependencies) dependencies

/-- `RoleContractSnapshot::freeze`. -/
def ContractSnapshot.freeze (contract : RoleContract N) (inputs : Json N) :
    Except String (ContractSnapshot N) := do
  contract.validate lib
  validateInstance lib contract.inputSchema inputs "inputs"
  boundedJson lib inputs instanceMaxBytes
  .ok ⟨1, contract, inputs, lib.digest (.arr [.num (lib.ofU32 1), contract.toValue lib, inputs])⟩

/-- One round of the loop over the proposed tasks. -/
def freezeTask (proposal : Proposal N) (recipe : Recipe N) (original : PlanTask N) :
    Except String (FrozenTask N) := do
  portableId original.id
  workflowText original.title 256
  workflowText original.spec 16384
  ensure (!(original.dependsOn.length > workflowPlanMaxTasks))
    "workflow task exceeds the dependency limit"
  let stage ← orElse (recipe.stages.find? fun stage => stage.id == original.stageId)
    "unknown workflow task stage"
  ensure (stage.roles.contains original.roleId) "workflow role is not allowed in this stage"
  let role ← orElse (recipe.roles.find? fun role => role.id == original.roleId)
    "unknown workflow task role"
  let dependencies ← declaredDependencies original.id (proposal.tasks.map PlanTask.id) []
    original.dependsOn
  let contract ← orElse (recipe.contracts.find? fun contract =>
      contract.id == role.contractId && contract.revision == role.contractRevision)
    "missing workflow contract revision"
  let snapshot ← ContractSnapshot.freeze lib contract original.inputs
  -- Every role has a binding by now, so the lookup of the profile cannot fail.
  .ok
    { task := { original with dependsOn := stageDependencies stage proposal.tasks dependencies }
      contract := snapshot
      profileId := ((proposal.roleProfiles.find? fun binding => binding.1 == original.roleId).map
        Prod.snd).getD [] }

/-- Every role of every stage has a task. -/
def coversStages (recipe : Recipe N) (frozen : List (FrozenTask N)) : Bool :=
  recipe.stages.all fun stage => stage.roles.all fun role =>
    frozen.any fun task => task.task.stageId == stage.id && task.task.roleId == role

/-- `compile_plan` up to the sort: the tasks with their dependencies, in the order of the
proposal. -/
def freezeTasks (proposal : Proposal N) (recipe : RecipeSnapshot N)
    (profiles : List (Text × AgentProfile N)) : Except String (List (FrozenTask N)) := do
  validateSelection lib proposal recipe profiles
  ensure (!(proposal.tasks.isEmpty || proposal.tasks.length > workflowPlanMaxTasks))
    "workflow requires 1-128 tasks"
  ensure ((proposal.tasks.map PlanTask.id).dedup.length == proposal.tasks.length)
    "duplicate workflow task id"
  let frozen ← proposal.tasks.mapM (freezeTask lib proposal recipe.recipe)
  ensure (coversStages recipe.recipe frozen) "workflow plan omits a mandatory stage or role"
  .ok frozen

def FrozenTask.id (frozen : FrozenTask N) : Text := frozen.task.id

def FrozenTask.dependsOn (frozen : FrozenTask N) : List Text := frozen.task.dependsOn

/-- Why there is no plan: a cycle, or what one of the checks says. -/
inductive PlanError where
  | cycle
  | refused (message : String)
deriving DecidableEq

/-- The text of the error. -/
def PlanError.message : PlanError → String
  | .cycle => "workflow task dependencies contain a cycle"
  | .refused message => message

/-- `compile_plan`. -/
def compilePlan (proposal : Proposal N) (recipe : RecipeSnapshot N)
    (profiles : List (Text × AgentProfile N)) (sourceWorkspace : SourceWorkspace) :
    Except PlanError (PlanSnapshot N) :=
  match freezeTasks lib proposal recipe profiles with
  | .error message => .error (.refused message)
  | .ok frozen =>
    match TopologicalOrder.sort FrozenTask.id FrozenTask.dependsOn frozen with
    | none => .error .cycle
    | some ordered =>
      let snapshot : PlanSnapshot N :=
        { version := 1
          sourceWorkspace
          objective := proposal.objective
          sourceSha := proposal.sourceSha
          recipe
          coordinatorProfileId := proposal.coordinatorProfileId
          profiles
          maxConcurrent := proposal.maxConcurrent
          tasks := ordered
          digest := [] }
      match boundedJson lib (snapshot.toValue lib) workflowPlanMaxBytes with
      | .error message => .error (.refused message)
      | .ok () => .ok { snapshot with digest := lib.digest (.obj (snapshot.content lib)) }

end Compile

open FrozenTask (dependsOn)

/-! ## The dependencies of a frozen task -/

section Frozen

variable {N : Type} {lib : Libraries N}

/-- The first stage depends directly on the second. -/
def Recipe.StageEdge (recipe : Recipe N) : Text → Text → Prop :=
  TopologicalOrder.Edge RecipeStage.id RecipeStage.dependsOn recipe.stages

/-- What a task has to wait for: what it declares, and the tasks of the stages that its
stage depends on. -/
def Recipe.Awaits (recipe : Recipe N) (tasks : List (PlanTask N)) (task : PlanTask N)
    (dependency : Text) : Prop :=
  dependency ∈ task.dependsOn ∨
    ∃ predecessor ∈ tasks, predecessor.id = dependency ∧
      recipe.StageEdge task.stageId predecessor.stageId

/-- The augmented dependency graph of a proposal. -/
def Recipe.AugmentedEdge (recipe : Recipe N) (tasks : List (PlanTask N)) (a b : Text) : Prop :=
  ∃ task ∈ tasks, task.id = a ∧ recipe.Awaits tasks task b

/-- A frozen task is the proposed one, with everything it has to wait for. -/
structure Freezes (recipe : Recipe N) (tasks : List (PlanTask N)) (original : PlanTask N)
    (frozen : FrozenTask N) : Prop where
  same : frozen.task = { original with dependsOn := frozen.dependsOn }
  awaits : ∀ dependency, dependency ∈ frozen.dependsOn ↔ recipe.Awaits tasks original dependency

theorem orElse_ok {α : Type} {value : Option α} {message : String} {a : α} :
    orElse value message = .ok a ↔ value = some a := by
  cases value <;> simp [orElse]

theorem mem_insertText {value x : Text} {values : List Text} :
    x ∈ insertText value values ↔ x = value ∨ x ∈ values := by
  induction values with
  | nil => simp [insertText]
  | cons other rest ih =>
    rw [insertText]
    split
    next same => simp [same]
    next =>
      split
      · exact mem_cons
      · rw [mem_cons, ih, mem_cons]
        exact or_left_comm

theorem declaredDependencies_ok {taskId : Text} {ids declared sofar result : List Text}
    (passed : declaredDependencies taskId ids sofar declared = .ok result) :
    (∀ x, x ∈ result ↔ x ∈ sofar ∨ x ∈ declared) ∧ ∀ x ∈ declared, x ∈ ids := by
  induction declared generalizing sofar with
  | nil =>
    cases passed
    exact ⟨fun x => by simp, nofun⟩
  | cons dependency rest ih =>
    obtain ⟨checked, passed⟩ := seq_ok passed
    obtain ⟨collected, known⟩ := ih passed
    have inIds : dependency ∈ ids := by
      by_contra missing
      simp [ensure, missing] at checked
    refine ⟨fun x => ?_, fun x member => ?_⟩
    · rw [collected, mem_insertText, mem_cons, or_assoc, or_left_comm]
    · rcases mem_cons.mp member with rfl | member
      · exact inIds
      · exact known x member

variable {stage : RecipeStage}

theorem mem_stageDependencies {tasks : List (PlanTask N)} {sofar : List Text} {x : Text} :
    x ∈ stageDependencies stage tasks sofar ↔
      x ∈ sofar ∨ ∃ predecessor ∈ tasks, predecessor.id = x ∧
        predecessor.stageId ∈ stage.dependsOn := by
  rw [stageDependencies]
  induction tasks generalizing sofar with
  | nil => simp
  | cons task rest ih =>
    rw [foldl_cons, ih]
    simp only [exists_mem_cons_iff, contains_iff_mem]
    by_cases waits : task.stageId ∈ stage.dependsOn
    · rw [if_pos waits, mem_insertText]
      simp only [waits, and_true, eq_comm (a := x), or_assoc]
      exact or_left_comm
    · rw [if_neg waits]
      simp only [waits, and_false, false_or]

/-- With the ids told apart, the edges of a stage are its own dependencies. -/
theorem stageEdge_iff {recipe : Recipe N} (valid : ValidStages recipe.stages)
    (member : stage ∈ recipe.stages) {other : Text} :
    recipe.StageEdge stage.id other ↔ other ∈ stage.dependsOn := by
  constructor
  · rintro ⟨found, inRecipe, same, depends⟩
    have equal : found = stage := inj_on_of_nodup_map valid.distinct inRecipe member same
    exact equal ▸ depends
  · exact fun depends => ⟨stage, member, rfl, depends⟩

variable {proposal : Proposal N}

theorem freezeTask_ok {recipe : Recipe N} (valid : ValidStages recipe.stages)
    {original : PlanTask N} {frozen : FrozenTask N}
    (passed : freezeTask lib proposal recipe original = .ok frozen) :
    Freezes recipe proposal.tasks original frozen ∧
      (∀ dependency ∈ original.dependsOn, dependency ∈ proposal.tasks.map PlanTask.id) ∧
      ∃ stage ∈ recipe.stages, stage.id = original.stageId := by
  obtain ⟨-, -, passed⟩ := seq_ok₂ passed
  obtain ⟨-, -, passed⟩ := seq_ok₂ passed
  obtain ⟨stage, found, passed⟩ := bind_ok passed
  obtain ⟨-, passed⟩ := seq_ok passed
  obtain ⟨role, -, passed⟩ := bind_ok passed
  obtain ⟨dependencies, declared, passed⟩ := bind_ok passed
  obtain ⟨contract, -, passed⟩ := bind_ok passed
  obtain ⟨snapshot, -, passed⟩ := bind_ok passed
  cases passed
  obtain ⟨collected, known⟩ := declaredDependencies_ok declared
  have inRecipe : stage ∈ recipe.stages := mem_of_find?_eq_some (orElse_ok.mp found)
  have named : stage.id = original.stageId := by
    simpa using find?_some (orElse_ok.mp found)
  refine ⟨⟨rfl, fun dependency => ?_⟩, known, stage, inRecipe, named⟩
  have edges : ∀ other, recipe.StageEdge original.stageId other ↔ other ∈ stage.dependsOn :=
    fun other => named ▸ stageEdge_iff valid inRecipe
  simp only [dependsOn, mem_stageDependencies, collected, Recipe.Awaits, edges,
    not_mem_nil, false_or]

/-- What holds of the tasks when they are about to be ordered. -/
structure Frozen (recipe : Recipe N) (tasks : List (PlanTask N)) (frozen : List (FrozenTask N)) :
    Prop where
  stages : ValidStages recipe.stages
  distinct : (tasks.map PlanTask.id).Nodup
  freezes : List.Forall₂ (Freezes recipe tasks) tasks frozen
  known : ∀ task ∈ tasks, ∀ dependency ∈ task.dependsOn, dependency ∈ tasks.map PlanTask.id
  staged : ∀ task ∈ tasks, ∃ stage ∈ recipe.stages, stage.id = task.stageId
  covers : coversStages recipe frozen = true

variable {profiles : List (Text × AgentProfile N)} {recipe : RecipeSnapshot N}

theorem validateSelection_ok (passed : validateSelection lib proposal recipe profiles = .ok ()) :
    ValidStages recipe.recipe.stages ∧ 1 ≤ proposal.maxConcurrent := by
  obtain ⟨-, snapshot, passed⟩ := seq_ok₂ passed
  obtain ⟨-, -, passed⟩ := seq_ok₂ passed
  obtain ⟨workers, -⟩ := seq_ok passed
  have bounds := ensure_ok.mp workers
  rw [Bool.and_eq_true, decide_eq_true_eq] at bounds
  exact ⟨(Recipe.validate_ok (seq_ok snapshot).1).2, bounds.1⟩

theorem freezeTasks_ok
    {frozen : List (FrozenTask N)} (passed : freezeTasks lib proposal recipe profiles = .ok frozen) :
    Frozen recipe.recipe proposal.tasks frozen ∧ 1 ≤ proposal.maxConcurrent := by
  obtain ⟨selection, -, passed⟩ := seq_ok₂ passed
  obtain ⟨unique, passed⟩ := seq_ok passed
  obtain ⟨tasks, mapped, passed⟩ := bind_ok passed
  obtain ⟨covers, passed⟩ := seq_ok passed
  cases passed
  obtain ⟨valid, workers⟩ := validateSelection_ok selection
  have each := mapM_ok mapped
  have frozenOf : ∀ task ∈ proposal.tasks, ∃ done,
      freezeTask lib proposal recipe.recipe task = .ok done := by
    intro task member
    obtain ⟨done, -, frozenTask⟩ := forall₂_mem_left each member
    exact ⟨done, frozenTask⟩
  refine ⟨⟨valid, ?_, each.imp fun _ _ done => (freezeTask_ok valid done).1, ?_, ?_,
    ensure_ok.mp covers⟩, workers⟩
  · apply nodup_of_dedup_length
    simpa using ensure_ok.mp unique
  · intro task member
    obtain ⟨done, frozenTask⟩ := frozenOf task member
    exact (freezeTask_ok valid frozenTask).2.1
  · intro task member
    obtain ⟨done, frozenTask⟩ := frozenOf task member
    exact (freezeTask_ok valid frozenTask).2.2

namespace Frozen

variable {recipe : Recipe N} {tasks : List (PlanTask N)} {frozen : List (FrozenTask N)}

variable (done : Frozen recipe tasks frozen)

include done

theorem ids_eq : frozen.map FrozenTask.id = tasks.map PlanTask.id := by
  -- The tasks that are waited for stay the same along the induction.
  have aligned : ∀ {all some : List (PlanTask N)} {done : List (FrozenTask N)},
      List.Forall₂ (Freezes recipe all) some done →
        done.map FrozenTask.id = some.map PlanTask.id := by
    intro all some done related
    induction related with
    | nil => rfl
    | cons here _ ih => rw [map_cons, map_cons, ih, FrozenTask.id, here.same]
  exact aligned done.freezes

/-- The order is made for the augmented graph. -/
theorem edge_iff (a b : Text) :
    TopologicalOrder.Edge FrozenTask.id dependsOn frozen a b ↔
      recipe.AugmentedEdge tasks a b := by
  constructor
  · rintro ⟨item, member, rfl, depends⟩
    obtain ⟨original, inTasks, freezes⟩ := forall₂_mem_right done.freezes member
    exact ⟨original, inTasks, by rw [FrozenTask.id, freezes.same], (freezes.awaits b).mp depends⟩
  · rintro ⟨original, inTasks, rfl, waits⟩
    obtain ⟨item, member, freezes⟩ := forall₂_mem_left done.freezes inTasks
    exact ⟨item, member, by rw [FrozenTask.id, freezes.same], (freezes.awaits b).mpr waits⟩

theorem edge_eq : TopologicalOrder.Edge FrozenTask.id dependsOn frozen =
      recipe.AugmentedEdge tasks :=
  funext fun a => funext fun b => propext (done.edge_iff a b)

/-- Nothing waits for a task that is not there. -/
theorem closed :
    ∀ item ∈ frozen, ∀ dependency ∈ item.dependsOn, dependency ∈ frozen.map FrozenTask.id := by
  intro item member dependency depends
  obtain ⟨original, inTasks, freezes⟩ := forall₂_mem_right done.freezes member
  rw [done.ids_eq]
  rcases (freezes.awaits dependency).mp depends with declared | ⟨predecessor, inside, rfl, -⟩
  · exact done.known original inTasks dependency declared
  · exact mem_map_of_mem inside

theorem sort_eq_none_iff : TopologicalOrder.sort FrozenTask.id dependsOn frozen = none ↔
      ∃ a, Relation.TransGen (recipe.AugmentedEdge tasks) a a := by
  have distinct : (frozen.map FrozenTask.id).Nodup := done.ids_eq ▸ done.distinct
  rw [TopologicalOrder.sort_eq_none_iff distinct done.closed, TopologicalOrder.HasCycle,
    done.edge_eq]

/-- Every stage has a task, because every stage has a role. -/
theorem exists_task (member : stage ∈ recipe.stages) : ∃ task ∈ tasks, task.stageId = stage.id := by
  obtain ⟨role, roles⟩ := exists_mem_of_ne_nil _ (done.stages.hasRole stage member)
  have covers := done.covers
  rw [coversStages, all_eq_true] at covers
  have here := all_eq_true.mp (covers stage member) role roles
  obtain ⟨item, inFrozen, matched⟩ := any_eq_true.mp here
  obtain ⟨original, inTasks, freezes⟩ := forall₂_mem_right done.freezes inFrozen
  refine ⟨original, inTasks, ?_⟩
  rw [Bool.and_eq_true, beq_iff_eq, freezes.same] at matched
  exact matched.1

/-- **Chains of stages are chains of tasks**, from every task of the later stage to every
task of the earlier one. -/
theorem stage_chain {later earlier : Text}
    (chain : Relation.TransGen recipe.StageEdge later earlier) {task : PlanTask N}
    (inTasks : task ∈ tasks) (ofLater : task.stageId = later) :
    ∀ target ∈ tasks, target.stageId = earlier →
      Relation.TransGen (recipe.AugmentedEdge tasks) task.id target.id := by
  have direct : ∀ first ∈ tasks, ∀ second ∈ tasks,
      recipe.StageEdge first.stageId second.stageId →
        recipe.AugmentedEdge tasks first.id second.id := fun first inFirst second inSecond edge =>
    ⟨first, inFirst, rfl, .inr ⟨second, inSecond, rfl, edge⟩⟩
  induction chain with
  | single edge =>
    rintro target inside rfl
    exact .single (direct task inTasks target inside (ofLater ▸ edge))
  | tail _ edge ih =>
    -- The stage in between has a task, and that is where the two parts meet.
    rintro target inside rfl
    obtain ⟨stage, member, rfl, depends⟩ := edge
    obtain ⟨middle, inMiddle, ofStage⟩ := done.exists_task member
    have last : recipe.StageEdge middle.stageId target.stageId :=
      ⟨stage, member, ofStage.symm, depends⟩
    exact (ih middle inMiddle ofStage).tail (direct middle inMiddle target inside last)

end Frozen

end Frozen

/-! ## Plans -/

section Plan

variable {N : Type} (lib : Libraries N)

variable {proposal : Proposal N} {recipe : RecipeSnapshot N}
  {profiles : List (Text × AgentProfile N)} {sourceWorkspace : SourceWorkspace}
  {plan : PlanSnapshot N}

/-- How a plan comes about. -/
theorem compilePlan_ok {lib : Libraries N}
    (compiled : compilePlan lib proposal recipe profiles sourceWorkspace = .ok plan) :
    ∃ frozen, freezeTasks lib proposal recipe profiles = .ok frozen ∧
      TopologicalOrder.sort FrozenTask.id dependsOn frozen = some plan.tasks ∧
      plan.recipe = recipe ∧ plan.maxConcurrent = proposal.maxConcurrent := by
  unfold compilePlan at compiled
  split at compiled
  · cases compiled
  next frozen passed =>
    split at compiled
    · cases compiled
    next ordered sorted =>
      dsimp only at compiled
      split at compiled
      · cases compiled
      · cases compiled
        exact ⟨frozen, passed, sorted, rfl, rfl⟩

theorem compilePlan_ids {lib : Libraries N}
    (compiled : compilePlan lib proposal recipe profiles sourceWorkspace = .ok plan) :
    (plan.tasks.map FrozenTask.id).Perm (proposal.tasks.map PlanTask.id) := by
  obtain ⟨frozen, passed, sorted, -, -⟩ := compilePlan_ok compiled
  rw [← (freezeTasks_ok passed).1.ids_eq]
  exact (TopologicalOrder.sort_some sorted).1.map FrozenTask.id

theorem compilePlan_eq_cycle_iff (proposal : Proposal N) (recipe : RecipeSnapshot N)
    (profiles : List (Text × AgentProfile N)) (sourceWorkspace : SourceWorkspace) :
    compilePlan lib proposal recipe profiles sourceWorkspace = .error .cycle ↔
      ∃ frozen, freezeTasks lib proposal recipe profiles = .ok frozen ∧
        TopologicalOrder.sort FrozenTask.id dependsOn frozen = none := by
  unfold compilePlan
  split
  next message refused => simp [refused]
  next frozen passed =>
    simp only [passed, Except.ok.injEq, exists_eq_left']
    split
    next gaveUp => simp [gaveUp]
    next ordered sorted => split <;> simp [sorted]

/-- What can be relied on in a plan: dependencies come first, also those between the
stages along whole chains, and there is at least one worker. -/
structure Scheduled (plan : PlanSnapshot N) : Prop where
  stages : ValidStages plan.recipe.recipe.stages
  distinct : (plan.tasks.map FrozenTask.id).Nodup
  first : TopologicalOrder.DepsFirst FrozenTask.id dependsOn plan.tasks
  staged : ∀ task ∈ plan.tasks, ∃ stage ∈ plan.recipe.recipe.stages, stage.id = task.task.stageId
  chained : ∀ later earlier, Relation.TransGen plan.recipe.recipe.StageEdge later earlier →
    ∀ task ∈ plan.tasks, task.task.stageId = later →
      ∀ target ∈ plan.tasks, target.task.stageId = earlier →
        Relation.TransGen (TopologicalOrder.Edge FrozenTask.id dependsOn plan.tasks)
          task.id target.id
  workers : 1 ≤ plan.maxConcurrent

theorem compilePlan_scheduled {lib : Libraries N}
    (compiled : compilePlan lib proposal recipe profiles sourceWorkspace = .ok plan) :
    Scheduled plan := by
  obtain ⟨frozen, passed, sorted, sameRecipe, sameWorkers⟩ := compilePlan_ok compiled
  obtain ⟨done, workers⟩ := freezeTasks_ok passed
  obtain ⟨perm, distinct, first⟩ := TopologicalOrder.sort_some sorted
  have original : ∀ task ∈ plan.tasks, ∃ proposed ∈ proposal.tasks,
      task.id = proposed.id ∧ task.task.stageId = proposed.stageId := by
    intro task member
    obtain ⟨proposed, inTasks, freezes⟩ := forall₂_mem_right done.freezes (perm.mem_iff.mp member)
    rw [FrozenTask.id, freezes.same]
    exact ⟨proposed, inTasks, rfl, rfl⟩
  subst sameRecipe
  refine ⟨done.stages, distinct, first, fun task member => ?_, ?_, sameWorkers ▸ workers⟩
  · obtain ⟨proposed, inTasks, -, sameStage⟩ := original task member
    rw [sameStage]
    exact done.staged proposed inTasks
  · intro later earlier chain task member ofLater target targetIn ofEarlier
    obtain ⟨proposed, inTasks, sameId, sameStage⟩ := original task member
    obtain ⟨goal, goalIn, sameGoal, sameGoalStage⟩ := original target targetIn
    have path := done.stage_chain chain inTasks (sameStage ▸ ofLater) goal goalIn
      (sameGoalStage ▸ ofEarlier)
    rw [sameId, sameGoal]
    refine Relation.TransGen.mono (fun a b edge => ?_) _ _ path
    obtain ⟨item, inFrozen, named, depends⟩ := (done.edge_iff a b).mpr edge
    exact ⟨item, perm.mem_iff.mpr inFrozen, named, depends⟩

/-- **The tasks of a plan are the proposed ones in an order that respects their
dependencies and, along whole chains, those of their stages.**  Among the proposals
that pass the checks before the sort, those refused for a cycle are exactly the
cyclic ones. -/
theorem compilePlan_respects_stage_order (proposal : Proposal N) (recipe : RecipeSnapshot N)
    (profiles : List (Text × AgentProfile N)) (sourceWorkspace : SourceWorkspace) :
    (∀ plan, compilePlan lib proposal recipe profiles sourceWorkspace = .ok plan →
      (∃ frozen, List.Forall₂ (Freezes recipe.recipe proposal.tasks) proposal.tasks frozen ∧
        plan.tasks.Perm frozen) ∧
      TopologicalOrder.DepsFirst FrozenTask.id dependsOn plan.tasks ∧
      ∀ later earlier, Relation.TransGen recipe.recipe.StageEdge later earlier →
        ∀ task ∈ plan.tasks, task.task.stageId = later →
          ∀ target ∈ plan.tasks, target.task.stageId = earlier →
            Relation.TransGen
              (TopologicalOrder.Edge FrozenTask.id dependsOn plan.tasks)
              task.id target.id) ∧
    (compilePlan lib proposal recipe profiles sourceWorkspace = .error .cycle ↔
      (∃ frozen, freezeTasks lib proposal recipe profiles = .ok frozen) ∧
        ∃ a, Relation.TransGen (recipe.recipe.AugmentedEdge proposal.tasks) a a) := by
  constructor
  · intro plan compiled
    obtain ⟨frozen, passed, sorted, sameRecipe, -⟩ := compilePlan_ok compiled
    have done := (freezeTasks_ok passed).1
    obtain ⟨perm, -, first⟩ := TopologicalOrder.sort_some sorted
    have scheduled := compilePlan_scheduled compiled
    refine ⟨⟨frozen, done.freezes, perm⟩, first, ?_⟩
    exact sameRecipe ▸ scheduled.chained
  · rw [compilePlan_eq_cycle_iff]
    constructor
    · rintro ⟨frozen, passed, gaveUp⟩
      exact ⟨⟨frozen, passed⟩, (freezeTasks_ok passed).1.sort_eq_none_iff.mp gaveUp⟩
    · rintro ⟨⟨frozen, passed⟩, cycle⟩
      exact ⟨frozen, passed, (freezeTasks_ok passed).1.sort_eq_none_iff.mpr cycle⟩

end Plan

/-! ### A plan of two stages -/

section Sample

/-- Decimal numbers, a digest that tells nothing apart and schemas that allow everything. -/
def sampleLibraries : Libraries Nat where
  ofU32 := UInt32.toNat
  ofI64 := Int.natAbs
  display := Nat.toDigits 10
  digest := fun _ => []
  schemaBuilds := fun _ => true
  schemaError := fun _ _ => none
  toLowercase := List.map Char.toLower

def sampleSchema : Json Nat := .obj [("type".toList, .str "object".toList)]

def sampleContract : RoleContract Nat where
  version := 1
  id := "work".toList
  revision := 1
  name := "Work".toList
  purpose := "Do the work".toList
  instructions := "Do it".toList
  inputSchema := sampleSchema
  resultSchema := sampleSchema
  requiredArtifacts := []
  checklist := []

def sampleRecipe : Recipe Nat where
  version := 1
  id := "two-stages".toList
  revision := 1
  name := "Two stages".toList
  description := "Build, then review".toList
  coordinatorInstructions := "Coordinate".toList
  roles := [⟨"worker".toList, "Worker".toList, "work".toList, 1⟩]
  contracts := [sampleContract]
  stages :=
    [⟨"build".toList, "Build".toList, "Build it".toList, ["worker".toList], [], none⟩,
      ⟨"review".toList, "Review".toList, "Review it".toList, ["worker".toList], ["build".toList],
        some .product⟩]

def sampleSnapshot : RecipeSnapshot Nat := ⟨1, .builtIn "two-stages".toList, sampleRecipe, []⟩

def sampleTask (id stage : String) (dependsOn : List Text) : PlanTask Nat :=
  ⟨id.toList, "Task".toList, "Spec".toList, stage.toList, "worker".toList, dependsOn, .obj [], none⟩

/-- A proposal with the given tasks and number of workers. -/
def sampleProposal (workers : UInt32) (tasks : List (PlanTask Nat)) : Proposal Nat where
  objective := "Objective".toList
  sourceSha := List.replicate 40 'a'
  recipeSource := .builtIn "two-stages".toList
  expectedRecipeDigest := []
  coordinatorProfileId := "agent".toList
  roleProfiles := [("worker".toList, "agent".toList)]
  maxConcurrent := workers
  tasks := tasks

def sampleProfiles : List (Text × AgentProfile Nat) :=
  [("agent".toList, ⟨"agent".toList, "agent".toList, "run".toList, .command, none, 0, .obj []⟩)]

def sampleWorkspace : SourceWorkspace := ⟨[], [], [], [], []⟩

def sampleCompile (workers : UInt32) (tasks : List (PlanTask Nat)) :
    Except PlanError (PlanSnapshot Nat) :=
  compilePlan sampleLibraries (sampleProposal workers tasks) sampleSnapshot sampleProfiles
    sampleWorkspace

/-- The review is proposed first and does not say what it waits for. -/
def sampleTasks : List (PlanTask Nat) := [sampleTask "b" "review" [], sampleTask "a" "build" []]

/-- Each of the two tasks waits for the other. -/
def cyclicTasks : List (PlanTask Nat) :=
  [sampleTask "b" "review" [], sampleTask "a" "build" ["b".toList]]

theorem exists_of_isOk {ε α : Type} {x : Except ε α} (isOk : x.isOk = true) : ∃ a, x = .ok a := by
  cases x with
  | error => cases isOk
  | ok a => exact ⟨a, rfl⟩

theorem sampleCompile_succeeds : ∃ plan, sampleCompile 1 sampleTasks = .ok plan :=
  exists_of_isOk (by decide +kernel)

theorem compilePlan_respects_stage_order_two_stages :
    ∃ plan, sampleCompile 1 sampleTasks = .ok plan ∧
      TopologicalOrder.DepsFirst FrozenTask.id dependsOn plan.tasks := by
  obtain ⟨plan, compiled⟩ := sampleCompile_succeeds
  have ordered := compilePlan_respects_stage_order sampleLibraries (sampleProposal 1 sampleTasks)
    sampleSnapshot sampleProfiles sampleWorkspace
  exact ⟨plan, compiled, (ordered.1 plan compiled).2.1⟩

theorem cyclicTasks_cycle :
    Relation.TransGen (sampleRecipe.AugmentedEdge cyclicTasks) "a".toList "a".toList := by
  have down : sampleRecipe.AugmentedEdge cyclicTasks "a".toList "b".toList :=
    ⟨sampleTask "a" "build" ["b".toList], by simp [cyclicTasks], rfl, .inl (by simp [sampleTask])⟩
  have up : sampleRecipe.AugmentedEdge cyclicTasks "b".toList "a".toList := by
    refine ⟨sampleTask "b" "review" [], by simp [cyclicTasks], rfl, .inr ?_⟩
    refine ⟨sampleTask "a" "build" ["b".toList], by simp [cyclicTasks], rfl, ?_⟩
    exact ⟨_, mem_cons_of_mem _ mem_cons_self, rfl, mem_cons_self⟩
  exact .tail (.single down) up

/-- Why something was refused. -/
def refusal {ε α : Type} : Except ε α → Option ε
  | .error reason => some reason
  | .ok _ => none

/-- A check before the sort speaks first: with no workers, a cyclic proposal is refused
for the workers. -/
theorem cyclic_refused_for_workers :
    (∃ a, Relation.TransGen (sampleRecipe.AugmentedEdge cyclicTasks) a a) ∧
      refusal (sampleCompile 0 cyclicTasks) =
        some (.refused "workflow requires 1-16 concurrent workers") ∧
      sampleCompile 0 cyclicTasks ≠ .error .cycle := by
  have workers : refusal (sampleCompile 0 cyclicTasks) =
      some (.refused "workflow requires 1-16 concurrent workers") := by decide +kernel
  refine ⟨⟨_, cyclicTasks_cycle⟩, workers, fun reported => ?_⟩
  have cycle : refusal (sampleCompile 0 cyclicTasks) = some .cycle := congrArg refusal reported
  exact absurd (workers.symm.trans cycle) (by decide)

end Sample

end Alera.Orchestration.Recipes
