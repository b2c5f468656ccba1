/-
# Alera.Orchestration.RecipeExport -- exporting a recipe and importing it again

`portable_document` writes an accepted recipe as JSON, which `from_yaml` reads as YAML
(`run_recipe.rs`).  The two do not have the same limits.  The export allows values at
depth 24 and any key; the import refuses a value inside 24 collections and the key `<<`.
Numbers come back as whatever their text is read as.

`portable_roundtrip_iff`: an accepted recipe comes back exactly when it is `Portable`.
Neither the number of nodes nor the size of the document stands in the way
(`boundedJson_counted`).
-/
import Alera.Orchestration.PlanCompilation
import Alera.Orchestration.WorkflowYaml

namespace Alera.Orchestration.Recipes

open Theory
open Cloud (byteLength)
open Json (asStr)

set_option autoImplicit false

/-! ## Reading the fields -/

section OfValue

variable {N : Type} (yaml : YamlLibraries N)

/-- The fields of a struct that denies unknown ones: from an object by name, or from an
array by position. -/
def structFields (names : List Text) : Json N → Option (List (Option (Json N)))
  | .obj members =>
    if members.all fun member => names.contains member.1 then
      some (names.map fun name => (members.find? fun member => member.1 == name).map Prod.snd)
    else none
  | .arr items => if items.length = names.length then some (items.map some) else none
  | _ => none

def ofU32 : Json N → Option UInt32
  | .num number => yaml.toU32 number
  | _ => none

def ofList {α : Type} (ofItem : Json N → Option α) : Json N → Option (List α)
  | .arr items => items.mapM ofItem
  | _ => none

def ChecklistItem.ofValue (value : Json N) : Option ChecklistItem :=
  match structFields (["id", "description"].map String.toList) value with
  | some [id, description] => do
      some ⟨← id.bind asStr, ← description.bind asStr⟩
  | _ => none

def RoleContract.ofValue (value : Json N) : Option (RoleContract N) :=
  match structFields (["version", "id", "revision", "name", "purpose", "instructions",
      "inputSchema", "resultSchema", "requiredArtifacts", "checklist"].map String.toList) value with
  | some [version, id, revision, name, purpose, instructions, inputSchema, resultSchema,
      requiredArtifacts, checklist] => do
      some ⟨← version.bind (ofU32 yaml), ← id.bind asStr, ← revision.bind (ofU32 yaml),
        ← name.bind asStr, ← purpose.bind asStr, ← instructions.bind asStr,
        ← inputSchema, ← resultSchema, ← requiredArtifacts.bind (ofList asStr),
        ← checklist.bind (ofList ChecklistItem.ofValue)⟩
  | _ => none

def RecipeRole.ofValue (value : Json N) : Option RecipeRole :=
  match structFields (["id", "name", "contractId", "contractRevision"].map String.toList) value with
  | some [id, name, contractId, contractRevision] => do
      some ⟨← id.bind asStr, ← name.bind asStr, ← contractId.bind asStr,
        ← contractRevision.bind (ofU32 yaml)⟩
  | _ => none

/-- A variant is written as its name, or as an object with that name and `null`. -/
def HumanGate.ofValue : Json N → Option HumanGate
  | .str name => ofName name
  | .obj [(name, .null)] => ofName name
  | _ => none
where
  ofName (name : Text) : Option HumanGate :=
    if name == "foundation".toList then some .foundation
    else if name == "product".toList then some .product
    else none

/-- An optional field may be missing or `null`. -/
def ofOptional {α : Type} (ofItem : Json N → Option α) : Option (Json N) → Option (Option α)
  | none | some .null => some none
  | some value => (ofItem value).map some

def RecipeStage.ofValue (value : Json N) : Option RecipeStage :=
  match structFields (["id", "name", "purpose", "roles", "dependsOn", "gate"].map String.toList)
      value with
  | some [id, name, purpose, roles, dependsOn, gate] => do
      some ⟨← id.bind asStr, ← name.bind asStr, ← purpose.bind asStr,
        ← roles.bind (ofList asStr), ← dependsOn.bind (ofList asStr),
        ← ofOptional HumanGate.ofValue gate⟩
  | _ => none

/-- `serde_json::from_value` for a recipe. -/
def Recipe.ofValue (value : Json N) : Option (Recipe N) :=
  match structFields (["version", "id", "revision", "name", "description",
      "coordinatorInstructions", "roles", "contracts", "stages"].map String.toList) value with
  | some [version, id, revision, name, description, coordinatorInstructions, roles, contracts,
      stages] => do
      some ⟨← version.bind (ofU32 yaml), ← id.bind asStr, ← revision.bind (ofU32 yaml),
        ← name.bind asStr, ← description.bind asStr,
        ← coordinatorInstructions.bind asStr, ← roles.bind (ofList (RecipeRole.ofValue yaml)),
        ← contracts.bind (ofList (RoleContract.ofValue yaml)),
        ← stages.bind (ofList RecipeStage.ofValue)⟩
  | _ => none

end OfValue

section Export

variable {N : Type} (lib : Libraries N) (yaml : YamlLibraries N)

/-- `WorkflowRecipeV1::from_yaml`. -/
def Recipe.fromYaml (source : Text) : Except String (Recipe N) := do
  let value ← parseWorkflowYaml yaml source
  let recipe ← orElse (Recipe.ofValue yaml value)
    "workflow recipe does not match the versioned format"
  recipe.validate lib
  .ok recipe

/-- The text of an accepted recipe: with line breaks, unless that is too long. -/
def Recipe.exportText (recipe : Recipe N) : Text :=
  let document := (recipe.toValue lib).pretty lib.display 0 ++ ['\n']
  if byteLength document > workflowDocumentMaxBytes then (recipe.toValue lib).compact lib.display
  else document

/-- `WorkflowRecipeV1::portable_document`. -/
def Recipe.portableDocument (recipe : Recipe N) : Except String Text := do
  recipe.validate lib
  .ok (recipe.exportText lib)

/-! ## When a recipe comes back -/

/-- What is documented of the numbers: their texts are of digits, signs, points and
exponents, and integers of 32 bits are read back. -/
structure DocumentedNumbers : Prop where
  text : ∀ n, lib.display n ≠ [] ∧ ∀ c ∈ lib.display n, c ∈ "0123456789+-.eE".toList
  integer : ∀ v, yaml.parseNumber (lib.display (lib.ofU32 v)) = some (lib.ofU32 v)
  toU32 : ∀ v, yaml.toU32 (lib.ofU32 v) = some v

/-- Within the limits of the import: less than 24 collections around every value, no merge
key, and every number is read back from its text. -/
def Portable : Nat → Json N → Prop
  | depth, .num n => depth < maxDepth ∧ yaml.parseNumber (lib.display n) = some n
  | depth, .arr items => depth < maxDepth ∧ PortableItems (depth + 1) items
  | depth, .obj members => depth < maxDepth ∧ PortableMembers (depth + 1) members
  | depth, _ => depth < maxDepth
where
  PortableItems : Nat → List (Json N) → Prop
    | _, [] => True
    | depth, item :: rest => Portable depth item ∧ PortableItems depth rest
  PortableMembers : Nat → List (Text × Json N) → Prop
    | _, [] => True
    | depth, (key, value) :: rest =>
      (key ≠ "<<".toList ∧ Portable depth value) ∧ PortableMembers depth rest

variable {lib yaml}

theorem DocumentedNumbers.plain (documented : DocumentedNumbers lib yaml) :
    PlainNumbers lib.display := by
  intro n c member
  have allowed : ("0123456789+-.eE".toList.all fun c => c ≠ '"' && c ≠ '\x00') = true := by decide
  simpa using List.all_eq_true.mp allowed c ((documented.text n).2 c member)

/-- The text of a number is none of the words of YAML. -/
theorem DocumentedNumbers.scalar (documented : DocumentedNumbers lib yaml) (n : N) :
    scalarValue yaml (lib.display n) .plain = .num n ↔
      yaml.parseNumber (lib.display n) = some n := by
  obtain ⟨notEmpty, allowed⟩ := documented.text n
  have notWord : ∀ word : Text, (∃ c ∈ word, c ∉ "0123456789+-.eE".toList) →
      lib.display n ≠ word := by
    rintro word ⟨c, inWord, outside⟩ same
    exact outside (allowed c (same ▸ inWord))
  have notNull : ¬ (lib.display n = [] ∨ lib.display n = "~".toList ∨
      lib.display n = "null".toList) := by
    rintro (empty | tilde | null)
    · exact notEmpty empty
    · exact notWord _ ⟨'~', by decide, by decide⟩ tilde
    · exact notWord _ ⟨'n', by decide, by decide⟩ null
  have notTrue : lib.display n ≠ "true".toList := notWord _ ⟨'t', by decide, by decide⟩
  have notFalse : lib.display n ≠ "false".toList := notWord _ ⟨'f', by decide, by decide⟩
  rw [scalarValue, if_neg notNull, if_neg notTrue, if_neg notFalse]
  cases yaml.parseNumber (lib.display n) <;> simp

mutual

/-- Portable is what fits and is read back as it is. -/
theorem portable_iff (documented : DocumentedNumbers lib yaml) (depth : Nat) (value : Json N) :
    Portable lib yaml depth value ↔
      fits depth value = true ∧ reread lib.display yaml value = value :=
  match value with
  | .null | .bool _ | .str _ => by simp [Portable, fits, reread]
  | .num n => by
      simp only [Portable, fits, reread, documented.scalar, decide_eq_true_eq]
  | .arr items => by
      rw [Portable, fits, reread, portableItems_iff documented, Bool.and_eq_true,
        decide_eq_true_eq, and_assoc, Json.arr.injEq]
  | .obj members => by
      rw [Portable, fits, reread, portableMembers_iff documented, Bool.and_eq_true,
        decide_eq_true_eq, and_assoc, Json.obj.injEq]

theorem portableItems_iff (documented : DocumentedNumbers lib yaml) (depth : Nat)
    (items : List (Json N)) :
    Portable.PortableItems lib yaml depth items ↔
      fits.fitItems depth items = true ∧ reread.rereadItems lib.display yaml items = items :=
  match items with
  | [] => by simp [Portable.PortableItems, fits.fitItems, reread.rereadItems]
  | item :: rest => by
      rw [Portable.PortableItems, fits.fitItems, reread.rereadItems, portable_iff documented,
        portableItems_iff documented, Bool.and_eq_true, List.cons.injEq]
      exact and_and_and_comm

theorem portableMembers_iff (documented : DocumentedNumbers lib yaml) (depth : Nat)
    (members : List (Text × Json N)) :
    Portable.PortableMembers lib yaml depth members ↔
      fits.fitMembers depth members = true ∧
        reread.rereadMembers lib.display yaml members = members :=
  match members with
  | [] => by simp [Portable.PortableMembers, fits.fitMembers, reread.rereadMembers]
  | (key, value) :: rest => by
      rw [Portable.PortableMembers, fits.fitMembers, reread.rereadMembers, portable_iff documented,
        portableMembers_iff documented, Bool.and_eq_true, Bool.and_eq_true, bne_iff_ne,
        List.cons.injEq, Prod.mk.injEq]
      constructor
      · rintro ⟨⟨notMerge, fit, same⟩, fitRest, sameRest⟩
        exact ⟨⟨⟨notMerge, fit⟩, fitRest⟩, ⟨rfl, same⟩, sameRest⟩
      · rintro ⟨⟨⟨notMerge, fit⟩, fitRest⟩, ⟨-, same⟩, sameRest⟩
        exact ⟨⟨notMerge, fit, same⟩, fitRest, sameRest⟩

end

/-! ### The fields of a recipe -/

theorem ofList_map {α : Type} {ofItem : Json N → Option α} {toItem : α → Json N}
    (inverse : ∀ a, ofItem (toItem a) = some a) (items : List α) :
    ofList ofItem (.arr (items.map toItem)) = some items := by
  rw [ofList]
  induction items with
  | nil => rfl
  | cons item rest ih => rw [List.map_cons, List.mapM_cons, inverse, ih]; rfl

theorem ofList_texts (values : List Text) :
    ofList asStr (texts values : Json N) = some values := by
  have inverse : ∀ text : Text, asStr (.str text : Json N) = some text := fun _ => rfl
  exact ofList_map inverse values

theorem ChecklistItem.ofValue_toValue (item : ChecklistItem) :
    ChecklistItem.ofValue (item.toValue : Json N) = some item := rfl

section

variable (documented : DocumentedNumbers lib yaml)

include documented

theorem ofU32_toValue (v : UInt32) : ofU32 yaml (.num (lib.ofU32 v)) = some v := documented.toU32 v

theorem RecipeRole.ofValue_toValue (role : RecipeRole) :
    RecipeRole.ofValue yaml (role.toValue lib) = some role := by
  show (ofU32 yaml (.num (lib.ofU32 role.contractRevision))).bind _ = _
  rw [ofU32_toValue documented]
  rfl

theorem RoleContract.ofValue_toValue (contract : RoleContract N) :
    RoleContract.ofValue yaml (contract.toValue lib) = some contract := by
  show (ofU32 yaml (.num (lib.ofU32 contract.version))).bind (fun _ =>
    (ofU32 yaml (.num (lib.ofU32 contract.revision))).bind fun _ =>
      (ofList asStr (texts contract.requiredArtifacts)).bind fun _ =>
        (ofList ChecklistItem.ofValue (.arr (contract.checklist.map ChecklistItem.toValue))).bind
          _) = _
  rw [ofU32_toValue documented, ofU32_toValue documented, ofList_texts,
    ofList_map ChecklistItem.ofValue_toValue]
  rfl

omit documented in
theorem HumanGate.ofOptional_toValue (gate : Option HumanGate) :
    ofOptional HumanGate.ofValue (some ((gate.map HumanGate.toValue).getD .null : Json N)) =
      some gate := by
  cases gate with
  | none => rfl
  | some gate => cases gate <;> rfl

omit documented in
theorem RecipeStage.ofValue_toValue (stage : RecipeStage) :
    RecipeStage.ofValue (stage.toValue : Json N) = some stage := by
  show (ofList asStr (texts stage.roles)).bind (fun _ =>
    (ofList asStr (texts stage.dependsOn)).bind fun _ =>
      (ofOptional HumanGate.ofValue (some ((stage.gate.map HumanGate.toValue).getD .null))).bind
        _) = _
  rw [ofList_texts, ofList_texts, HumanGate.ofOptional_toValue]
  rfl

theorem Recipe.ofValue_toValue (recipe : Recipe N) :
    Recipe.ofValue yaml (recipe.toValue lib) = some recipe := by
  show (ofU32 yaml (.num (lib.ofU32 recipe.version))).bind (fun _ =>
    (ofU32 yaml (.num (lib.ofU32 recipe.revision))).bind fun _ =>
      (ofList (RecipeRole.ofValue yaml) (.arr (recipe.roles.map (RecipeRole.toValue lib)))).bind
        fun _ => (ofList (RoleContract.ofValue yaml)
          (.arr (recipe.contracts.map (RoleContract.toValue lib)))).bind fun _ =>
            (ofList RecipeStage.ofValue (.arr (recipe.stages.map RecipeStage.toValue))).bind _) = _
  rw [ofU32_toValue documented, ofU32_toValue documented,
    ofList_map (RecipeRole.ofValue_toValue documented),
    ofList_map (RoleContract.ofValue_toValue documented), ofList_map RecipeStage.ofValue_toValue]
  rfl

end

/-! ### Reading the numbers again -/

/-- Only the schemas of a recipe have numbers that may change. -/
def RoleContract.rereadSchemas (display : N → Text) (yaml : YamlLibraries N)
    (contract : RoleContract N) : RoleContract N :=
  { contract with
    inputSchema := reread display yaml contract.inputSchema
    resultSchema := reread display yaml contract.resultSchema }

def Recipe.rereadSchemas (display : N → Text) (yaml : YamlLibraries N) (recipe : Recipe N) :
    Recipe N :=
  { recipe with contracts := recipe.contracts.map (RoleContract.rereadSchemas display yaml) }

theorem rereadItems_map {α : Type} {toItem : α → Json N} {again : α → α}
    (commutes : ∀ a, reread lib.display yaml (toItem a) = toItem (again a)) (items : List α) :
    reread.rereadItems lib.display yaml (items.map toItem) = (items.map again).map toItem := by
  induction items with
  | nil => rfl
  | cons item rest ih =>
    rw [List.map_cons, reread.rereadItems, commutes, ih, List.map_cons, List.map_cons]

/-- A list of values that stay as they are. -/
theorem rereadItems_fixed {α : Type} {toItem : α → Json N}
    (fixed : ∀ a, reread lib.display yaml (toItem a) = toItem a) (items : List α) :
    reread.rereadItems lib.display yaml (items.map toItem) = items.map toItem := by
  have unchanged : ∀ a, reread lib.display yaml (toItem a) = toItem (id a) := fixed
  rw [rereadItems_map unchanged, List.map_id]

theorem reread_texts (values : List Text) :
    reread lib.display yaml (texts values) = texts values := by
  rw [texts, reread, rereadItems_fixed fun _ => rfl]

theorem reread_u32 (documented : DocumentedNumbers lib yaml) (v : UInt32) :
    reread lib.display yaml (.num (lib.ofU32 v)) = .num (lib.ofU32 v) := by
  exact (documented.scalar _).mpr (documented.integer v)

theorem reread_role (documented : DocumentedNumbers lib yaml) (role : RecipeRole) :
    reread lib.display yaml (role.toValue lib) = role.toValue lib := by
  simp only [RecipeRole.toValue, reread, reread.rereadMembers]
  rw [(documented.scalar _).mpr (documented.integer role.contractRevision)]

theorem reread_stage (stage : RecipeStage) :
    reread lib.display yaml (stage.toValue : Json N) = stage.toValue := by
  have gate : reread lib.display yaml ((stage.gate.map HumanGate.toValue).getD .null) =
      (stage.gate.map HumanGate.toValue).getD .null := by
    cases stage.gate with
    | none => rfl
    | some gate => cases gate <;> rfl
  rw [RecipeStage.toValue, reread]
  simp only [reread.rereadMembers, reread_texts, gate]
  rfl

variable (documented : DocumentedNumbers lib yaml)

include documented

theorem reread_contract (contract : RoleContract N) :
    reread lib.display yaml (contract.toValue lib) =
      (contract.rereadSchemas lib.display yaml).toValue lib := by
  have checklist : reread lib.display yaml
      (.arr (contract.checklist.map ChecklistItem.toValue)) =
        .arr (contract.checklist.map ChecklistItem.toValue) := by
    rw [reread, rereadItems_fixed fun _ => rfl]
  rw [RoleContract.toValue, reread]
  simp only [reread.rereadMembers, reread_texts, checklist, reread_u32 documented]
  rfl

theorem reread_recipe (recipe : Recipe N) : reread lib.display yaml (recipe.toValue lib) =
      (recipe.rereadSchemas lib.display yaml).toValue lib := by
  have roles : reread lib.display yaml (.arr (recipe.roles.map (RecipeRole.toValue lib))) =
      .arr (recipe.roles.map (RecipeRole.toValue lib)) := by
    rw [reread, rereadItems_fixed (reread_role documented)]
  have contracts : reread lib.display yaml
      (.arr (recipe.contracts.map (RoleContract.toValue lib))) =
        .arr ((recipe.contracts.map (RoleContract.rereadSchemas lib.display yaml)).map
          (RoleContract.toValue lib)) := by
    rw [reread, rereadItems_map (reread_contract documented)]
  have stages : reread lib.display yaml (.arr (recipe.stages.map RecipeStage.toValue)) =
      .arr (recipe.stages.map RecipeStage.toValue) := by
    rw [reread, rereadItems_fixed reread_stage]
  rw [Recipe.toValue, reread]
  simp only [reread.rereadMembers, roles, contracts, stages, reread_u32 documented]
  rfl

/-! ### The round trip -/

/-- The exported text passes the checks in front of the parser, and reaches it unchanged. -/
theorem exportText_accepted {recipe : Recipe N} (valid : recipe.validate lib = .ok ()) :
    parseWorkflowYaml yaml (recipe.exportText lib) =
      readEvents yaml (yaml.parse (recipe.exportText lib)).failure
        (yaml.parse (recipe.exportText lib)).events ⟨[], none, 0, 0⟩ >>= finishDocument := by
  have small := (boundedJson_counted (Recipe.validate_ok valid).1).2
  have printable : Printable (recipe.exportText lib) := by
    rw [Recipe.exportText]
    split
    · exact printable_compact documented.plain _
    · exact (printable_pretty documented.plain 0 _).append (printable_char '\n' (by decide))
  have fitting : byteLength (recipe.exportText lib) ≤ workflowDocumentMaxBytes := by
    unfold Recipe.exportText
    dsimp only
    split
    · exact small
    next short => exact Nat.not_lt.mp short
  have notEmpty : recipe.exportText lib ≠ [] := by
    rw [Recipe.exportText]
    split
    · exact List.cons_ne_nil _ _
    · exact List.append_ne_nil_of_right_ne_nil _ (List.cons_ne_nil _ _)
  have checked : (!((recipe.exportText lib).isEmpty ||
      byteLength (recipe.exportText lib) > workflowDocumentMaxBytes ||
      (recipe.exportText lib).contains '\x00')) = true := by
    simp only [Bool.not_eq_true', Bool.or_eq_false_iff, List.isEmpty_eq_false_iff,
      decide_eq_false_iff_not, List.contains_eq_mem]
    exact ⟨⟨notEmpty, Nat.not_lt.mpr fitting⟩, printable.noNul⟩
  rw [parseWorkflowYaml, ensure_ok.mpr checked, printable.normalize]
  rfl

/-- What an import of the exported text returns. -/
theorem fromYaml_exportText {recipe : Recipe N}
    (valid : recipe.validate lib = .ok ()) (maps : DistinctKeys (recipe.toValue lib))
    (reads : yaml.ReadsAs lib.display (recipe.exportText lib) (recipe.toValue lib)) :
    (Recipe.fromYaml lib yaml (recipe.exportText lib)).toOption =
      if fits 0 (recipe.toValue lib) &&
          ((recipe.rereadSchemas lib.display yaml).validate lib).isOk then
        some (recipe.rereadSchemas lib.display yaml)
      else none := by
  have few := (boundedJson_counted (Recipe.validate_ok valid).1).1
  have parsed := readDocument lib.display yaml reads few maps
  rw [← exportText_accepted documented valid] at parsed
  rw [Recipe.fromYaml]
  cases outcome : parseWorkflowYaml yaml (recipe.exportText lib) with
  | error message =>
    rw [outcome] at parsed
    cases fit : fits 0 (recipe.toValue lib) with
    | false => rfl
    | true =>
      rw [Recipe.toValue] at fit
      rw [fit] at parsed
      cases parsed
  | ok value =>
    rw [outcome] at parsed
    cases fit : fits 0 (recipe.toValue lib) with
    | false =>
      rw [Recipe.toValue] at fit
      rw [fit] at parsed
      cases parsed
    | true =>
      have same : value = (recipe.rereadSchemas lib.display yaml).toValue lib := by
        rw [← reread_recipe documented]
        rw [Recipe.toValue] at fit
        rw [fit] at parsed
        exact Option.some.inj parsed
      rw [same]
      show (orElse (Recipe.ofValue yaml _) _ >>= _).toOption = _
      rw [Recipe.ofValue_toValue documented]
      show ((recipe.rereadSchemas lib.display yaml).validate lib >>= _).toOption = _
      cases (recipe.rereadSchemas lib.display yaml).validate lib <;> rfl

omit documented

variable (lib yaml)

/-- **An accepted recipe is imported as it was exported exactly when it is portable**, if
the parser turns the exported document into the events of its value. -/
theorem portable_roundtrip_iff (documented : DocumentedNumbers lib yaml) (recipe : Recipe N)
    (valid : recipe.validate lib = .ok ()) (maps : DistinctKeys (recipe.toValue lib))
    (reads : yaml.ReadsAs lib.display (recipe.exportText lib) (recipe.toValue lib)) :
    (recipe.portableDocument lib >>= Recipe.fromYaml lib yaml) = .ok recipe ↔
      Portable lib yaml 0 (recipe.toValue lib) := by
  have exported : recipe.portableDocument lib = .ok (recipe.exportText lib) := by
    rw [Recipe.portableDocument, valid]
    rfl
  have imported := fromYaml_exportText documented valid maps reads
  rw [exported, ok_bind, portable_iff documented, reread_recipe documented]
  constructor
  · intro back
    rw [back] at imported
    split at imported
    next accepted =>
      rw [Bool.and_eq_true] at accepted
      exact ⟨accepted.1, by rw [← Option.some.inj imported]⟩
    · cases imported
  · rintro ⟨fit, same⟩
    -- Equal JSON is read as equal recipes, so the schemas have not changed.
    have unchanged : recipe.rereadSchemas lib.display yaml = recipe := by
      have readBack := Recipe.ofValue_toValue documented (recipe.rereadSchemas lib.display yaml)
      rw [same, Recipe.ofValue_toValue documented] at readBack
      exact (Option.some.inj readBack).symm
    have accepted : (recipe.validate lib).isOk = true := by rw [valid]; rfl
    rw [unchanged, fit, accepted, Bool.and_self] at imported
    cases outcome : Recipe.fromYaml lib yaml (recipe.exportText lib) with
    | error message =>
      rw [outcome] at imported
      cases imported
    | ok back =>
      rw [outcome] at imported
      rw [Option.some.inj imported]

end Export

/-! ### Two recipes -/

section Sample

/-- Numbers written as tallies, one stroke more than the number. -/
def tallyLibraries : Libraries Nat :=
  { sampleLibraries with display := fun n => List.replicate (n + 1) '1' }

/-- A parser that answers the events of the given value. -/
def tallyYaml (value : Json Nat) : YamlLibraries Nat where
  parse := fun _ => ⟨(documentEvents tallyLibraries.display value).map (·, ⟨1, 0⟩), ⟨1, 0⟩⟩
  isJson := fun _ => true
  parseNumber := fun text =>
    if text.length = 0 then none
    else if text.all (· == '1') then some (text.length - 1) else none
  toU32 := fun n => some (UInt32.ofNat n)

theorem tally_documented (value : Json Nat) : DocumentedNumbers tallyLibraries (tallyYaml value) where
  text := by
    intro n
    refine ⟨List.cons_ne_nil _ _, fun c member => ?_⟩
    obtain ⟨-, rfl⟩ := List.mem_replicate.mp member
    decide
  integer := by
    simp [tallyYaml, tallyLibraries]
  toU32 := by
    simp [tallyYaml, tallyLibraries, sampleLibraries]

theorem tally_reads (text : Text) (value : Json Nat) :
    (tallyYaml value).ReadsAs tallyLibraries.display text value := by
  rw [YamlLibraries.ReadsAs, tallyYaml, List.map_map]
  exact List.map_id _

theorem validate_of_isOk {recipe : Recipe Nat}
    (isOk : (recipe.validate tallyLibraries).isOk = true) :
    recipe.validate tallyLibraries = .ok () := by
  obtain ⟨⟨⟩, accepted⟩ := exists_of_isOk isOk
  exact accepted

theorem portable_roundtrip_iff_two_stages :
    (sampleRecipe.portableDocument tallyLibraries >>=
      Recipe.fromYaml tallyLibraries (tallyYaml (sampleRecipe.toValue tallyLibraries))) =
        .ok sampleRecipe := by
  have documented := tally_documented (sampleRecipe.toValue tallyLibraries)
  have valid : sampleRecipe.validate tallyLibraries = .ok () :=
    validate_of_isOk (by decide +kernel)
  have maps : DistinctKeys (sampleRecipe.toValue tallyLibraries) := by
    simp [sampleRecipe, sampleContract, sampleSchema, Recipe.toValue, RecipeRole.toValue,
      RoleContract.toValue, RecipeStage.toValue, HumanGate.toValue, texts, DistinctKeys,
      DistinctKeys.DistinctItems, DistinctKeys.DistinctMembers]
  have unchanged : sampleRecipe.rereadSchemas tallyLibraries.display
      (tallyYaml (sampleRecipe.toValue tallyLibraries)) = sampleRecipe := rfl
  have fit : fits 0 (sampleRecipe.toValue tallyLibraries) = true := by decide +kernel
  have portable : Portable tallyLibraries (tallyYaml (sampleRecipe.toValue tallyLibraries)) 0
      (sampleRecipe.toValue tallyLibraries) :=
    (portable_iff documented 0 _).mpr ⟨fit, by rw [reread_recipe documented, unchanged]⟩
  exact (portable_roundtrip_iff tallyLibraries _ documented sampleRecipe valid maps
    (tally_reads _ _)).mpr portable

/-- An empty array inside of the given number of arrays. -/
def nestedArrays : Nat → Json Nat
  | 0 => .arr []
  | depth + 1 => .arr [nestedArrays depth]

/-- A schema whose constant has a value at depth 24 of the recipe. -/
def deepRecipe : Recipe Nat :=
  { sampleRecipe with
    contracts := [{ sampleContract with
      inputSchema := .obj
        [("type".toList, .str "object".toList), ("const".toList, nestedArrays 20)] }] }

theorem eq_error_of_refusal {ε α : Type} {x : Except ε α} {reason : ε}
    (refused : refusal x = some reason) : x = .error reason := by
  cases x with
  | error other => rw [Option.some.inj refused]
  | ok a => cases refused

/-- Accepted and exported, but refused by the import. -/
theorem deepRecipe_not_imported :
    deepRecipe.validate tallyLibraries = .ok () ∧
      (tallyYaml (deepRecipe.toValue tallyLibraries)).ReadsAs tallyLibraries.display
        (deepRecipe.exportText tallyLibraries) (deepRecipe.toValue tallyLibraries) ∧
      (deepRecipe.portableDocument tallyLibraries >>=
        Recipe.fromYaml tallyLibraries (tallyYaml (deepRecipe.toValue tallyLibraries))) =
          .error "workflow YAML exceeds the node or nesting limit" := by
  have valid : deepRecipe.validate tallyLibraries = .ok () := validate_of_isOk (by decide +kernel)
  have events : refusal (readEvents (tallyYaml (deepRecipe.toValue tallyLibraries)) ⟨1, 0⟩
      ((documentEvents tallyLibraries.display (deepRecipe.toValue tallyLibraries)).map (·, ⟨1, 0⟩))
      ⟨[], none, 0, 0⟩) = some "workflow YAML exceeds the node or nesting limit" := by
    decide +kernel
  have parsed : parseWorkflowYaml (tallyYaml (deepRecipe.toValue tallyLibraries))
      (deepRecipe.exportText tallyLibraries) =
        .error "workflow YAML exceeds the node or nesting limit" := by
    rw [exportText_accepted (tally_documented _) valid]
    exact congrArg (· >>= finishDocument) (eq_error_of_refusal events)
  refine ⟨valid, tally_reads _ _, ?_⟩
  rw [Recipe.portableDocument, valid, ok_bind, ok_bind, Recipe.fromYaml, parsed]
  rfl

end Sample

end Alera.Orchestration.Recipes
