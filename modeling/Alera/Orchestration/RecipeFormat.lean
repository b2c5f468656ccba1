/-
# Alera.Orchestration.RecipeFormat -- workflow recipes and when they are accepted

A recipe names roles, the contracts their work is judged by, and stages that depend on
each other (`run_recipe.rs`, `orchestration_role_contract.rs`).  `validate` is the gate
that every recipe passes before it is used, stored or exported
(`run_recipe_compilation.rs`), with the bounds on the JSON it is written as
(`orchestration_contract_schema.rs`).

The libraries behind it are parameters (`Libraries`): how a number is written, the digest
of a document, the JSON Schema compiler, and Unicode lower case.

`ValidStages` is what the rest of the development uses of an accepted recipe.
-/
import Alera.Cloud.Sessions
import Alera.Theory.Json
import Alera.Theory.Runs
import Alera.Theory.Worklist

namespace Alera.Orchestration.Recipes

open Theory List
open Cloud (trim isControl byteLength)

set_option autoImplicit false

abbrev Text := List Char

/-- What the code calls outside of this repository. -/
structure Libraries (N : Type) where
  ofU32 : UInt32 → N
  ofI64 : Int → N
  /-- The text of a number. -/
  display : N → Text
  /-- Hexadecimal SHA-256 of the compact text with all objects sorted. -/
  digest : Json N → Text
  /-- `jsonschema::options().build` accepts the schema. -/
  schemaBuilds : Json N → Bool
  /-- The path of the first place where the instance breaks the schema. -/
  schemaError : Json N → Json N → Option Text
  toLowercase : Text → Text

/-! ## The documents -/

/-- `RoleContractChecklistItem`. -/
structure ChecklistItem where
  id : Text
  description : Text
deriving DecidableEq

/-- `RoleContractV1`. -/
structure RoleContract (N : Type) where
  version : UInt32
  id : Text
  revision : UInt32
  name : Text
  purpose : Text
  instructions : Text
  inputSchema : Json N
  resultSchema : Json N
  requiredArtifacts : List Text
  checklist : List ChecklistItem

/-- `WorkflowRecipeRole`. -/
structure RecipeRole where
  id : Text
  name : Text
  contractId : Text
  contractRevision : UInt32
deriving DecidableEq

/-- `WorkflowHumanGate`. -/
inductive HumanGate where
  | foundation
  | product
deriving DecidableEq

/-- `WorkflowRecipeStage`. -/
structure RecipeStage where
  id : Text
  name : Text
  purpose : Text
  roles : List Text
  dependsOn : List Text
  gate : Option HumanGate
deriving DecidableEq

/-- `WorkflowRecipeV1`. -/
structure Recipe (N : Type) where
  version : UInt32
  id : Text
  revision : UInt32
  name : Text
  description : Text
  coordinatorInstructions : Text
  roles : List RecipeRole
  contracts : List (RoleContract N)
  stages : List RecipeStage

/-! ### Their JSON -/

section ToValue

variable {N : Type} (lib : Libraries N)

def texts (values : List Text) : Json N := .arr (values.map .str)

def ChecklistItem.toValue (item : ChecklistItem) : Json N :=
  .obj [("id".toList, .str item.id), ("description".toList, .str item.description)]

def RoleContract.toValue (contract : RoleContract N) : Json N :=
  .obj
    [("version".toList, .num (lib.ofU32 contract.version)), ("id".toList, .str contract.id),
      ("revision".toList, .num (lib.ofU32 contract.revision)), ("name".toList, .str contract.name),
      ("purpose".toList, .str contract.purpose),
      ("instructions".toList, .str contract.instructions),
      ("inputSchema".toList, contract.inputSchema), ("resultSchema".toList, contract.resultSchema),
      ("requiredArtifacts".toList, texts contract.requiredArtifacts),
      ("checklist".toList, .arr (contract.checklist.map ChecklistItem.toValue))]

def RecipeRole.toValue (role : RecipeRole) : Json N :=
  .obj
    [("id".toList, .str role.id), ("name".toList, .str role.name),
      ("contractId".toList, .str role.contractId),
      ("contractRevision".toList, .num (lib.ofU32 role.contractRevision))]

def HumanGate.toValue : HumanGate → Json N
  | .foundation => .str "foundation".toList
  | .product => .str "product".toList

def RecipeStage.toValue (stage : RecipeStage) : Json N :=
  .obj
    [("id".toList, .str stage.id), ("name".toList, .str stage.name),
      ("purpose".toList, .str stage.purpose), ("roles".toList, texts stage.roles),
      ("dependsOn".toList, texts stage.dependsOn),
      ("gate".toList, (stage.gate.map HumanGate.toValue).getD .null)]

/-- `serde_json::to_value` of a recipe. -/
def Recipe.toValue (recipe : Recipe N) : Json N :=
  .obj
    [("version".toList, .num (lib.ofU32 recipe.version)), ("id".toList, .str recipe.id),
      ("revision".toList, .num (lib.ofU32 recipe.revision)), ("name".toList, .str recipe.name),
      ("description".toList, .str recipe.description),
      ("coordinatorInstructions".toList, .str recipe.coordinatorInstructions),
      ("roles".toList, .arr (recipe.roles.map (RecipeRole.toValue lib))),
      ("contracts".toList, .arr (recipe.contracts.map (RoleContract.toValue lib))),
      ("stages".toList, .arr (recipe.stages.map RecipeStage.toValue))]

end ToValue

/-! ## Checks -/

/-- Fails with the message unless the condition holds. -/
def ensure (condition : Bool) (message : String) : Except String Unit :=
  if condition then .ok () else .error message

/-- The checks of a loop over a list, in order. -/
def checkAll {α : Type} (check : α → Except String Unit) : List α → Except String Unit
  | [] => .ok ()
  | item :: rest => do
      check item
      checkAll check rest

/-- Fails at the first id that was seen before. -/
def checkFresh {α : Type} (idOf : α → Text) (message : String) (check : α → Except String Unit) :
    List Text → List α → Except String Unit
  | _, [] => .ok ()
  | seen, item :: rest => do
      check item
      ensure (!seen.contains (idOf item)) message
      checkFresh idOf message check (idOf item :: seen) rest

/-- `CONTRACT_MAX_BYTES`. -/
def contractMaxBytes : Nat := 64 * 1024

/-- `INSTANCE_MAX_BYTES`. -/
def instanceMaxBytes : Nat := 256 * 1024

/-- `WORKFLOW_DOCUMENT_MAX_BYTES`. -/
def workflowDocumentMaxBytes : Nat := 256 * 1024

/-- `portable_id`. -/
def portableId (id : Text) : Except String Unit :=
  ensure (!(id.isEmpty || id == ".".toList || id == "..".toList || byteLength id > 80 ||
      !id.all fun c => c.isAlphanum || c == '-' || c == '_' || c == '.'))
    "contract identifiers must be 1-80 ASCII letters, digits, dots, hyphens or underscores"

/-- The names that Windows reserves. -/
def reservedNames : List Text :=
  ["CON", "PRN", "AUX", "NUL", "COM1", "COM2", "COM3", "COM4", "COM5", "COM6", "COM7", "COM8",
    "COM9", "LPT1", "LPT2", "LPT3", "LPT4", "LPT5", "LPT6", "LPT7", "LPT8", "LPT9", "COM¹", "COM²",
    "COM³", "LPT¹", "LPT²", "LPT³"].map String.toList

/-- `artifact_path`. -/
def artifactPath (path : Text) : Except String Unit := do
  ensure (!(path.isEmpty || byteLength path > 512 ||
      path.any fun c => isControl c || "\\:*?\"<>|".toList.contains c))
    "contract artifact must be a portable workspace-relative file path"
  checkAll (fun part =>
    ensure (!(part.isEmpty || byteLength part > 255 || part == ".".toList || part == "..".toList ||
        part.getLast? == some '.' || part.getLast? == some ' ' ||
        part.map Char.toLower == ".git".toList ||
        reservedNames.contains ((part.takeWhile (· != '.')).map Char.toUpper)))
      "contract artifact path contains an unsafe component")
    (path.splitOn '/')

section Json

variable {N : Type} (lib : Libraries N)

/-- The bytes that `bounded_json` counts for a value apart from what is in it. -/
def countedBytes : Json N → Nat
  | .obj members => (members.map fun member => byteLength member.1 + 4).sum + 2
  | .arr items => items.length + 2
  | .str value => byteLength value + 2
  | _ => 8

/-- The loop of `bounded_json`: the values still to visit, last pushed first, how many more
may be visited, and the bytes so far. -/
def boundedWalk (maxBytes : Nat) : Nat → List (Json N × Nat) → Nat → Except String Unit
  | _, [], _ => .ok ()
  | 0, _ :: _, _ => .error "contract JSON exceeds the node or depth limit"
  | left + 1, (value, depth) :: pending, bytes =>
    if depth > 24 then .error "contract JSON exceeds the node or depth limit"
    else if bytes + countedBytes value > maxBytes then
      .error "contract JSON exceeds the size limit"
    else boundedWalk maxBytes left
      ((value.children.map (·, depth + 1)).reverse ++ pending) (bytes + countedBytes value)

/-- `bounded_json`. -/
def boundedJson (value : Json N) (maxBytes : Nat) : Except String Unit := do
  boundedWalk maxBytes 4096 [(value, 0)] 0
  ensure (!(byteLength (value.compact lib.display) > maxBytes))
    "contract JSON exceeds the size limit"

/-- The keywords that a schema of the given type may have besides the common ones. -/
def keywordsOf (kind : Text) : Option (List Text) :=
  if kind == "object".toList then
    some (["properties", "required", "additionalProperties", "minProperties",
      "maxProperties"].map String.toList)
  else if kind == "array".toList then some (["items", "minItems", "maxItems"].map String.toList)
  else if kind == "string".toList then some (["minLength", "maxLength"].map String.toList)
  else if kind == "integer".toList || kind == "number".toList then
    some (["minimum", "maximum", "exclusiveMinimum", "exclusiveMaximum"].map String.toList)
  else if kind == "boolean".toList || kind == "null".toList then some []
  else none

def commonKeywords : List Text :=
  ["type", "title", "description", "enum", "const"].map String.toList

/-- The error of a missing part. -/
def orElse {α : Type} (value : Option α) (message : String) : Except String α :=
  match value with
  | some value => .ok value
  | none => .error message

/-- The checks of an object schema; returns its properties' schemas. -/
def objectSchema (schema : Json N) : Except String (List (Json N)) := do
  let properties ← match schema.get? "properties".toList with
    | none => .ok []
    | some properties => orElse properties.asObject "properties must be an object"
  match schema.get? "required".toList with
    | none => .ok ()
    | some required => do
        let names ← orElse required.asArray "required must be an array"
        checkAll (fun name => do
          let name ← orElse name.asStr "required must contain property names"
          ensure (((schema.get? "properties".toList).bind fun props => props.get? name).isSome)
            "required property has no definition") names
  ensure (((schema.get? "additionalProperties".toList).map Json.isBoolean).getD true)
    "additionalProperties must be a boolean"
  .ok (properties.map Prod.snd)

/-- The checks of one schema; returns the schemas in it, first pushed first. -/
def schemaNode (schema : Json N) : Except String (List (Json N)) := do
  let members ← orElse schema.asObject "contract schema must be an object"
  let kind ← orElse ((schema.get? "type".toList).bind Json.asStr)
    "every contract schema must declare one type"
  let keywords ← orElse (keywordsOf kind) "unsupported contract schema type"
  checkAll (fun member => ensure (commonKeywords.contains member.1 || keywords.contains member.1)
    "unsupported contract schema keyword") members
  if kind == "object".toList then objectSchema schema
  else if kind == "array".toList then do
    let items ← orElse (schema.get? "items".toList) "array schema requires items"
    .ok [items]
  else .ok []

/-- The loop of `compile_schema`. -/
def schemaWalk : Nat → List (Json N × Nat) → Except String Unit
  | _, [] => .ok ()
  | 0, _ :: _ => .error "contract schema exceeds the node or depth limit"
  | left + 1, (schema, depth) :: pending =>
    if depth > 12 then .error "contract schema exceeds the node or depth limit"
    else do
      let inside ← schemaNode schema
      schemaWalk left ((inside.map (·, depth + 1)).reverse ++ pending)

/-- `compile_schema`. -/
def compileSchema (schema : Json N) : Except String Unit := do
  boundedJson lib schema contractMaxBytes
  ensure ((schema.get? "type".toList).bind Json.asStr == some "object".toList)
    "contract schema root must have type object"
  schemaWalk 128 [(schema, 0)]
  ensure (lib.schemaBuilds schema) "invalid contract schema: a keyword value is invalid"

/-- `validate_instance`. -/
def validateInstance (schema value : Json N) (label : String) : Except String Unit := do
  boundedJson lib value instanceMaxBytes
  compileSchema lib schema
  match lib.schemaError schema value with
  | none => .ok ()
  | some path => .error ("contract " ++ label ++ " failed validation at " ++ String.ofList path)

end Json

/-- A text that is there, not too long and without NUL. -/
def acceptableText (value : Text) (maximum : Nat) : Bool :=
  !((trim value).isEmpty || byteLength value > maximum || value.contains '\x00')

section Validate

variable {N : Type} (lib : Libraries N)

/-- The loop over a contract's checklist, whose message names the item. -/
def validateChecklist : List Text → List ChecklistItem → Except String Unit
  | _, [] => .ok ()
  | seen, item :: rest => do
      portableId item.id
      ensure (!((trim item.description).isEmpty || byteLength item.description > 2048))
        "contract checklist description is empty or too long"
      ensure (!seen.contains item.id) ("duplicate contract checklist id: " ++ String.ofList item.id)
      validateChecklist (item.id :: seen) rest

/-- `RoleContractV1::validate`. -/
def RoleContract.validate (contract : RoleContract N) : Except String Unit := do
  ensure (!(contract.version != 1 || contract.revision == 0))
    "role contract requires version 1 and a positive revision"
  portableId contract.id
  ensure (acceptableText contract.name 160) "contract name is empty, too long or contains NUL"
  ensure (acceptableText contract.purpose 4096)
    "contract purpose is empty, too long or contains NUL"
  ensure (acceptableText contract.instructions 16384)
    "contract instructions is empty, too long or contains NUL"
  boundedJson lib (contract.toValue lib) contractMaxBytes
  compileSchema lib contract.inputSchema
  compileSchema lib contract.resultSchema
  ensure (!(contract.requiredArtifacts.length > 64 || contract.checklist.length > 64))
    "contract allows at most 64 required artifacts and checklist items"
  checkFresh lib.toLowercase "duplicate contract artifact path" artifactPath []
    contract.requiredArtifacts
  validateChecklist [] contract.checklist

/-- `text`. -/
def text (value : Text) (maximum : Nat) (label : String) : Except String Unit :=
  ensure (acceptableText value maximum)
    ("workflow " ++ label ++ " is empty, too long or contains NUL")

/-- `unique`. -/
def unique (values : List Text) (label : String) : Except String Unit :=
  ensure (values.dedup.length == values.length) ("workflow " ++ label ++ " contains duplicates")

/-- The check of one of the three list lengths. -/
def countCheck (label : String) (length : Nat) : Except String Unit :=
  ensure (!(length == 0 || length > 16)) ("workflow recipe requires 1-16 " ++ label)

/-- A role's contract is there in the revision that it names. -/
def RecipeRole.hasContract (contracts : List (RoleContract N)) (role : RecipeRole) : Bool :=
  (contracts.find? fun contract => contract.id == role.contractId).any fun contract =>
    contract.revision == role.contractRevision

/-- The loop over the roles. -/
def validateRoles (contracts : List (RoleContract N)) :
    List Text → List RecipeRole → Except String Unit
  | _, [] => .ok ()
  | seen, role :: rest => do
      portableId role.id
      text role.name 160 "role name"
      ensure (!seen.contains role.id) "duplicate workflow role id"
      ensure (role.hasContract contracts) "workflow role references a missing contract revision"
      validateRoles contracts (role.id :: seen) rest

/-- The loop over the stages. -/
def validateStages (roles : List Text) : List Text → List RecipeStage → Except String Unit
  | _, [] => .ok ()
  | seen, stage :: rest => do
      portableId stage.id
      text stage.name 160 "stage name"
      text stage.purpose 4096 "stage purpose"
      ensure (!seen.contains stage.id) "duplicate workflow stage id"
      ensure (!(stage.roles.isEmpty || stage.roles.length > 16 || stage.dependsOn.length > 16))
        "workflow stage has invalid role or dependency counts"
      unique stage.roles "stage roles"
      unique stage.dependsOn "stage dependencies"
      checkAll (fun role => ensure (roles.contains role) "workflow stage references a missing role")
        stage.roles
      validateStages roles (stage.id :: seen) rest

/-- `stage_order`. -/
def Recipe.stageOrder (recipe : Recipe N) : Except String (List Text) :=
  match TopologicalOrder.sort RecipeStage.id RecipeStage.dependsOn recipe.stages with
  | some ordered => .ok (ordered.map RecipeStage.id)
  | none => .error "workflow stage dependencies contain a cycle or missing reference"

/-- `stages[&id].depends_on`, for a stage that is there. -/
def dependenciesOf (stages : List RecipeStage) (id : Text) : List Text :=
  ((stages.find? fun stage => stage.id == id).map RecipeStage.dependsOn).getD []

/-- The loop that collects a stage's ancestors, with what is still to do, last pushed
first. -/
def ancestorsWalk (stages : List RecipeStage) : Nat → List Text → List Text → List Text
  | 0, _, ancestors => ancestors
  | _ + 1, [], ancestors => ancestors
  | fuel + 1, id :: pending, ancestors =>
    if ancestors.contains id then ancestorsWalk stages fuel pending ancestors
    else ancestorsWalk stages fuel ((dependenciesOf stages id).reverse ++ pending) (id :: ancestors)

/-- Every stage pushes its dependencies at most once. -/
def ancestorsOf (stages : List RecipeStage) (stage : RecipeStage) : List Text :=
  ancestorsWalk stages (stage.dependsOn.length + (stages.map fun s => s.dependsOn.length).sum)
    stage.dependsOn.reverse []

/-- The stages with the given gate. -/
def Recipe.gated (recipe : Recipe N) (gate : HumanGate) : List RecipeStage :=
  recipe.stages.filter fun stage => stage.gate == some gate

/-- `WorkflowRecipeV1::validate`. -/
def Recipe.validate (recipe : Recipe N) : Except String Unit := do
  ensure (!(recipe.version != 1 || recipe.revision == 0))
    "workflow recipe requires version 1 and a positive revision"
  portableId recipe.id
  text recipe.name 160 "name"
  text recipe.description 4096 "description"
  text recipe.coordinatorInstructions 16384 "coordinator instructions"
  boundedJson lib (recipe.toValue lib) workflowDocumentMaxBytes
  countCheck "roles" recipe.roles.length
  countCheck "contracts" recipe.contracts.length
  countCheck "stages" recipe.stages.length
  checkFresh RoleContract.id "duplicate workflow contract id" (RoleContract.validate lib) []
    recipe.contracts
  validateRoles recipe.contracts [] recipe.roles
  ensure ((recipe.roles.map RecipeRole.contractId).dedup.length == recipe.contracts.length)
    "workflow recipe contains an unused contract"
  validateStages (recipe.roles.map RecipeRole.id) [] recipe.stages
  ensure ((recipe.stages.flatMap RecipeStage.roles).dedup.length == recipe.roles.length)
    "workflow recipe contains an unused role"
  checkAll (fun stage =>
    ensure (!stage.dependsOn.any fun dependency => dependency == stage.id ||
        !(recipe.stages.map RecipeStage.id).contains dependency)
      "workflow stage has a missing or self dependency") recipe.stages
  let _ ← recipe.stageOrder
  ensure (!((recipe.gated .foundation).length > 1 || (recipe.gated .product).length > 1))
    "workflow recipes allow at most one Foundation and one Product gate"
  match (recipe.gated .product).head? with
  | none => .ok ()
  | some product =>
    ensure ((ancestorsOf recipe.stages product).length + 1 == recipe.stages.length)
      "Product gate must follow every other stage"

end Validate

/-! ## What acceptance says about the stages -/

theorem ensure_ok {condition : Bool} {message : String} :
    ensure condition message = .ok () ↔ condition = true := by
  cases condition <;> simp [ensure]

theorem checkAll_ok {α : Type} {check : α → Except String Unit} {items : List α}
    (passed : checkAll check items = .ok ()) : ∀ item ∈ items, check item = .ok () := by
  induction items with
  | nil => nofun
  | cons item rest ih =>
    obtain ⟨here, later⟩ := seq_ok passed
    exact forall_mem_cons.mpr ⟨here, ih later⟩

theorem nodup_of_dedup_length {values : List Text} (same : values.dedup.length = values.length) :
    values.Nodup :=
  (dedup_sublist values).eq_of_length same ▸ nodup_dedup values

/-- What the loop over the stages has established. -/
theorem validateStages_ok {roles seen : List Text} {stages : List RecipeStage}
    (passed : validateStages roles seen stages = .ok ()) :
    (stages.map RecipeStage.id).Nodup ∧ (∀ stage ∈ stages, stage.id ∉ seen) ∧
      ∀ stage ∈ stages, stage.roles ≠ [] := by
  induction stages generalizing seen with
  | nil => exact ⟨nodup_nil, nofun, nofun⟩
  | cons stage rest ih =>
    obtain ⟨-, -, passed⟩ := seq_ok₂ passed
    obtain ⟨-, fresh, passed⟩ := seq_ok₂ passed
    obtain ⟨counts, -, passed⟩ := seq_ok₂ passed
    obtain ⟨-, -, passed⟩ := seq_ok₂ passed
    obtain ⟨distinct, unseen, hasRole⟩ := ih passed
    have notSeen : stage.id ∉ seen := by simpa using ensure_ok.mp fresh
    have someRole : stage.roles ≠ [] := by
      intro none
      rw [ensure_ok, none] at counts
      simp at counts
    refine ⟨?_, forall_mem_cons.mpr ⟨notSeen, ?_⟩, forall_mem_cons.mpr ⟨someRole, hasRole⟩⟩
    · rw [map_cons, nodup_cons]
      refine ⟨fun again => ?_, distinct⟩
      obtain ⟨other, member, same⟩ := mem_map.mp again
      exact unseen other member (same ▸ mem_cons_self ..)
    · exact fun other member inside => unseen other member (mem_cons_of_mem _ inside)

/-- The stages of an accepted recipe: told apart by their ids, each with a role, depending
only on each other and without a cycle. -/
structure ValidStages (stages : List RecipeStage) : Prop where
  distinct : (stages.map RecipeStage.id).Nodup
  hasRole : ∀ stage ∈ stages, stage.roles ≠ []
  known : ∀ stage ∈ stages, ∀ dependency ∈ stage.dependsOn, dependency ∈ stages.map RecipeStage.id
  acyclic : ¬ TopologicalOrder.HasCycle RecipeStage.id RecipeStage.dependsOn stages

theorem Recipe.validate_ok {N : Type} {lib : Libraries N} {recipe : Recipe N}
    (passed : recipe.validate lib = .ok ()) :
    boundedJson lib (recipe.toValue lib) workflowDocumentMaxBytes = .ok () ∧
      ValidStages recipe.stages := by
  obtain ⟨-, -, passed⟩ := seq_ok₂ passed
  obtain ⟨-, -, passed⟩ := seq_ok₂ passed
  obtain ⟨-, bounded, passed⟩ := seq_ok₂ passed
  obtain ⟨-, -, passed⟩ := seq_ok₂ passed
  obtain ⟨-, -, passed⟩ := seq_ok₂ passed
  obtain ⟨-, -, passed⟩ := seq_ok₂ passed
  obtain ⟨stages, -, passed⟩ := seq_ok₂ passed
  obtain ⟨dependencies, passed⟩ := seq_ok passed
  obtain ⟨order, sorted, -⟩ := bind_ok passed
  obtain ⟨distinct, -, hasRole⟩ := validateStages_ok stages
  have known : ∀ stage ∈ recipe.stages, ∀ dependency ∈ stage.dependsOn,
      dependency ∈ recipe.stages.map RecipeStage.id := by
    intro stage member dependency depends
    have checked := ensure_ok.mp (checkAll_ok dependencies stage member)
    rw [Bool.not_eq_true', any_eq_false] at checked
    have here := checked dependency depends
    simp only [Bool.or_eq_true, not_or, Bool.not_eq_true', Bool.not_eq_false,
      contains_iff_mem] at here
    exact here.2
  refine ⟨bounded, distinct, hasRole, known, fun cycle => ?_⟩
  rw [Recipe.stageOrder, (TopologicalOrder.sort_eq_none_iff distinct known).mpr cycle] at sorted
  cases sorted

end Alera.Orchestration.Recipes
