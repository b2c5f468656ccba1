/-
# Alera.Orchestration.WorkflowYaml -- reading a workflow document

`parse_workflow_yaml` (`run_yaml.rs`) builds a JSON value from the events of a YAML
parser, without aliases, tags or merge keys and within bounds on nodes and nesting.
Before that it replaces pairs of surrogate escapes in a JSON document
(`run_json_escapes.rs`).

The parser is a parameter (`YamlLibraries`).  For the events of a JSON value the
reader's answer is known exactly (`feed_value`): it is accepted when it `fits`, and
then it is the value with its numbers read from their texts again (`reread`).
-/
import Alera.Orchestration.RecipeFormat
import Alera.Theory.Lists

namespace Alera.Orchestration.Recipes

open Theory List
open Cloud (byteLength)

set_option autoImplicit false

/-! ## Events -/

/-- `TScalarStyle`. -/
inductive ScalarStyle where
  | plain
  | singleQuoted
  | doubleQuoted
  | literal
  | folded
deriving DecidableEq

/-- `Event`; of a tag only whether it is there. -/
inductive YamlEvent where
  | nothing
  | streamStart
  | streamEnd
  | documentStart
  | documentEnd
  | alias (anchor : Nat)
  | scalar (text : Text) (style : ScalarStyle) (anchor : Nat) (tagged : Bool)
  | sequenceStart (anchor : Nat) (tagged : Bool)
  | sequenceEnd
  | mappingStart (anchor : Nat) (tagged : Bool)
  | mappingEnd

/-- `Marker`. -/
structure Mark where
  line : Nat
  col : Nat

/-- What the parser yields: events with their positions, and where it fails behind them. -/
structure YamlStream where
  events : List (YamlEvent × Mark)
  failure : Mark

/-- What the import calls outside of this repository. -/
structure YamlLibraries (N : Type) where
  parse : Text → YamlStream
  /-- The text is a JSON document. -/
  isJson : Text → Bool
  parseNumber : Text → Option N
  /-- The number as an unsigned integer of 32 bits. -/
  toU32 : N → Option UInt32

/-! ## Surrogate pairs -/

def hexValue (c : Char) : Option Nat :=
  if c.isDigit then some (c.toNat - '0'.toNat)
  else if 'a' ≤ c ∧ c ≤ 'f' then some (c.toNat - 'a'.toNat + 10)
  else if 'A' ≤ c ∧ c ≤ 'F' then some (c.toNat - 'A'.toNat + 10)
  else none

/-- `from_str_radix` with base 16, which allows a plus sign in front. -/
def fromHex (digits : List Char) : Option Nat :=
  let digits := if digits.head? == some '+' then digits.tail else digits
  if digits.isEmpty then none
  else digits.foldlM (fun value c => (hexValue c).map (16 * value + ·)) 0

/-- `unicode_escape`. -/
def unicodeEscape (escape : List Char) : Option Nat :=
  if "\\u".toList.isPrefixOf escape then fromHex (escape.drop 2) else none

/-- `surrogate_pair`, at the start of the text. -/
def surrogatePair (text : List Char) : Option Char :=
  if text.length < 12 then none
  else (unicodeEscape (text.take 6)).bind fun high =>
    (unicodeEscape ((text.drop 6).take 6)).bind fun low =>
      if 0xd800 ≤ high ∧ high ≤ 0xdbff ∧ 0xdc00 ≤ low ∧ low ≤ 0xdfff then
        some (Char.ofNat (0x10000 + (high - 0xd800) * 1024 + low - 0xdc00))
      else none

/-- The loop of `normalize_json_surrogate_pairs`, by characters: quotes and backslashes are
bytes of their own. -/
def normalizeFrom (quoted : Bool) : List Char → List Char
  | [] => []
  | c :: rest =>
    if c = '"' then c :: normalizeFrom (!quoted) rest
    else if c = '\\' ∧ quoted = true then
      match surrogatePair (c :: rest) with
      | some value => value :: normalizeFrom quoted (rest.drop 11)
      -- An escaped backslash or quote must not start another escape or string.
      | none => c :: (rest.take 1 ++ normalizeFrom quoted (rest.drop 1))
    else c :: normalizeFrom quoted rest
termination_by text => text.length
decreasing_by all_goals simp only [List.length_cons, List.length_drop]; omega

section Reader

variable {N : Type} (yaml : YamlLibraries N)

/-- `normalize_json_surrogate_pairs`. -/
def normalizeJsonSurrogatePairs (source : Text) : Text :=
  if (find "\\u".toList source).isNone || !yaml.isJson source then source
  else normalizeFrom false source

/-! ## The reader -/

/-- `Collection`. -/
inductive Collection (N : Type) where
  | sequence (items : List (Json N))
  | mapping (members : List (Text × Json N)) (key : Option Text)

/-- The variables of the loop; the last pushed collection first. -/
structure Reading (N : Type) where
  stack : List (Collection N)
  root : Option (Json N)
  documents : Nat
  nodes : Nat

/-- An error with or without the position of the event. -/
inductive ReadError where
  | plain (message : String)
  | located (message : String)

def ReadError.message (mark : Mark) : ReadError → String
  | .plain message => message
  | .located message =>
    message ++ " at line " ++ toString mark.line ++ ", column " ++ toString mark.col

/-- `MAX_NODES`. -/
def maxNodes : Nat := 8192

/-- `MAX_DEPTH`. -/
def maxDepth : Nat := 24

/-- `count_node`. -/
def countNode (state : Reading N) : Except ReadError (Reading N) :=
  if state.nodes + 1 > maxNodes || state.stack.length ≥ maxDepth then
    .error (.plain "workflow YAML exceeds the node or nesting limit")
  else .ok { state with nodes := state.nodes + 1 }

/-- `append`. -/
def appendValue (value : Json N) (state : Reading N) : Except ReadError (Reading N) :=
  match state.stack with
  | .sequence items :: outer => .ok { state with stack := .sequence (items ++ [value]) :: outer }
  | .mapping members (some key) :: outer =>
    if (members.map Prod.fst).contains key then
      .error (.located "workflow YAML has a duplicate mapping key")
    else .ok { state with stack := .mapping (members ++ [(key, value)]) none :: outer }
  | .mapping members none :: outer =>
    match value with
    | .str text =>
      if text == "<<".toList then
        .error (.located "workflow YAML merge keys are not allowed")
      else .ok { state with stack := .mapping members (some text) :: outer }
    | _ => .error (.located "workflow YAML mapping keys must be strings")
  | [] =>
    if state.root.isNone then .ok { state with root := some value }
    else .error (.located "workflow YAML contains multiple root values")

/-- `scalar`. -/
def scalarValue (text : Text) (style : ScalarStyle) : Json N :=
  if style = .plain then
    if text = [] ∨ text = "~".toList ∨ text = "null".toList then .null
    else if text = "true".toList then .bool true
    else if text = "false".toList then .bool false
    else match yaml.parseNumber text with
      | some number => .num number
      | none => .str text
  else .str text

/-- The start of a collection. -/
def openCollection (collection : Collection N) (anchor : Nat) (tagged : Bool)
    (state : Reading N) : Except ReadError (Reading N) :=
  if anchor ≠ 0 ∨ tagged = true then
    .error (.plain "workflow YAML anchors and tags are not allowed")
  else (countNode state).map fun counted => { counted with stack := collection :: counted.stack }

/-- The end of a collection. -/
def closeCollection (state : Reading N) : Except ReadError (Reading N) :=
  match state.stack with
  | .sequence items :: outer => appendValue (.arr items) { state with stack := outer }
  | .mapping members none :: outer => appendValue (.obj members) { state with stack := outer }
  | _ => .error (.plain "workflow YAML contains an incomplete collection")

/-- One round of the loop, for an event other than the end of the stream. -/
def advance (state : Reading N) : YamlEvent → Except ReadError (Reading N)
  | .streamStart | .documentEnd | .streamEnd => .ok state
  | .documentStart =>
    if state.documents + 1 ≠ 1 then
      .error (.plain "workflow YAML must contain exactly one document")
    else .ok { state with documents := state.documents + 1 }
  | .alias _ => .error (.plain "workflow YAML aliases and anchors are not allowed")
  | .scalar text style anchor tagged =>
    if anchor ≠ 0 ∨ tagged = true then
      .error (.plain "workflow YAML anchors and tags are not allowed")
    else (countNode state).bind (appendValue (scalarValue yaml text style))
  | .sequenceStart anchor tagged => openCollection (.sequence []) anchor tagged state
  | .mappingStart anchor tagged => openCollection (.mapping [] none) anchor tagged state
  | .sequenceEnd | .mappingEnd => closeCollection state
  | .nothing => .error (.plain "workflow YAML parser emitted an unexpected event")

/-- The loop, to the end of the stream or to where the parser fails. -/
def readEvents (failure : Mark) : List (YamlEvent × Mark) → Reading N → Except String (Reading N)
  | [], _ =>
    .error ("invalid workflow YAML at line " ++ toString failure.line ++ ", column " ++
      toString failure.col)
  | (.streamEnd, _) :: _, state => .ok state
  | (event, mark) :: rest, state =>
    match advance yaml state event with
    | .error reason => .error (reason.message mark)
    | .ok next => readEvents failure rest next

/-- What the loop leaves behind, as a document. -/
def finishDocument (state : Reading N) : Except String (Json N) :=
  if state.documents ≠ 1 ∨ state.stack.isEmpty = false then
    .error "workflow YAML must contain one complete document"
  else match state.root with
    | some (.obj members) => .ok (.obj members)
    | _ => .error "workflow YAML must have a mapping root"

/-- `parse_workflow_yaml`. -/
def parseWorkflowYaml (source : Text) : Except String (Json N) := do
  ensure (!(source.isEmpty || byteLength source > workflowDocumentMaxBytes ||
      source.contains '\x00'))
    "workflow YAML is empty, too large or contains NUL"
  let stream := yaml.parse (normalizeJsonSurrogatePairs yaml source)
  let state ← readEvents yaml stream.failure stream.events ⟨[], none, 0, 0⟩
  finishDocument state

end Reader

/-! ## The events of a JSON value -/

section Events

variable {N : Type} (display : N → Text)

def plainEvent (text : Text) : YamlEvent := .scalar text .plain 0 false

def quotedEvent (text : Text) : YamlEvent := .scalar text .doubleQuoted 0 false

/-- The events of a value: strings and keys are quoted, everything else is plain. -/
def valueEvents : Json N → List YamlEvent
  | .null => [plainEvent "null".toList]
  | .bool value => [plainEvent (Json.literal value)]
  | .num value => [plainEvent (display value)]
  | .str value => [quotedEvent value]
  | .arr items => .sequenceStart 0 false :: (itemEvents items ++ [.sequenceEnd])
  | .obj members => .mappingStart 0 false :: (memberEvents members ++ [.mappingEnd])
where
  itemEvents : List (Json N) → List YamlEvent
    | [] => []
    | item :: rest => valueEvents item ++ itemEvents rest
  memberEvents : List (Text × Json N) → List YamlEvent
    | [] => []
    | (key, value) :: rest => quotedEvent key :: (valueEvents value ++ memberEvents rest)

/-- The events of a document. -/
def documentEvents (value : Json N) : List YamlEvent :=
  .streamStart :: .documentStart :: (valueEvents display value ++ [.documentEnd, .streamEnd])

/-- The parser turns the text into the events of the value. -/
def YamlLibraries.ReadsAs (yaml : YamlLibraries N) (text : Text) (value : Json N) : Prop :=
  (yaml.parse text).events.map Prod.fst = documentEvents display value

/-- How often a value is counted: itself, the keys and everything in it. -/
def countedNodes : Json N → Nat
  | .arr items => 1 + countedItems items
  | .obj members => 1 + countedMembers members
  | _ => 1
where
  countedItems : List (Json N) → Nat
    | [] => 0
    | item :: rest => countedNodes item + countedItems rest
  countedMembers : List (Text × Json N) → Nat
    | [] => 0
    | (_, value) :: rest => 1 + countedNodes value + countedMembers rest

/-- The value is nested less deeply than the reader allows and has no merge key. -/
def fits : Nat → Json N → Bool
  | depth, .arr items => decide (depth < maxDepth) && fitItems (depth + 1) items
  | depth, .obj members => decide (depth < maxDepth) && fitMembers (depth + 1) members
  | depth, _ => decide (depth < maxDepth)
where
  fitItems : Nat → List (Json N) → Bool
    | _, [] => true
    | depth, item :: rest => fits depth item && fitItems depth rest
  fitMembers : Nat → List (Text × Json N) → Bool
    | _, [] => true
    | depth, (key, value) :: rest => (key != "<<".toList && fits depth value) && fitMembers depth rest

/-- Every object is a map: its keys are told apart. -/
def DistinctKeys : Json N → Prop
  | .arr items => DistinctItems items
  | .obj members => (members.map Prod.fst).Nodup ∧ DistinctMembers members
  | _ => True
where
  DistinctItems : List (Json N) → Prop
    | [] => True
    | item :: rest => DistinctKeys item ∧ DistinctItems rest
  DistinctMembers : List (Text × Json N) → Prop
    | [] => True
    | (_, value) :: rest => DistinctKeys value ∧ DistinctMembers rest

/-- The value with its numbers read from their texts. -/
def reread (yaml : YamlLibraries N) : Json N → Json N
  | .num value => scalarValue yaml (display value) .plain
  | .arr items => .arr (rereadItems items)
  | .obj members => .obj (rereadMembers members)
  | .null => .null
  | .bool value => .bool value
  | .str value => .str value
where
  rereadItems : List (Json N) → List (Json N)
    | [] => []
    | item :: rest => reread yaml item :: rereadItems rest
  rereadMembers : List (Text × Json N) → List (Text × Json N)
    | [] => []
    | (key, value) :: rest => (key, reread yaml value) :: rereadMembers rest

end Events

/-! ## Reading the events of a value -/

section Feed

variable {N : Type} (display : N → Text) (yaml : YamlLibraries N)

/-- The rounds of the loop over some events. -/
def feed (events : List YamlEvent) (state : Reading N) : Option (Reading N) :=
  events.foldlM (fun state event => (advance yaml state event).toOption) state

@[simp] theorem feed_nil (state : Reading N) : feed yaml [] state = some state := rfl

theorem feed_cons (event : YamlEvent) (events : List YamlEvent) (state : Reading N) :
    feed yaml (event :: events) state =
      (advance yaml state event).toOption.bind (feed yaml events) := rfl

theorem feed_append (first second : List YamlEvent) (state : Reading N) :
    feed yaml (first ++ second) state = (feed yaml first state).bind (feed yaml second) := by
  rw [feed, List.foldlM_append]
  rfl

/-- The loop up to the end of the stream. -/
theorem readEvents_toOption (failure : Mark) {events : List YamlEvent}
    (inside : YamlEvent.streamEnd ∉ events) {marked : List (YamlEvent × Mark)}
    (same : marked.map Prod.fst = events ++ [.streamEnd]) (state : Reading N) :
    (readEvents yaml failure marked state).toOption = feed yaml events state := by
  induction events generalizing marked state with
  | nil =>
    obtain ⟨⟨event, mark⟩, rest, rfl, rfl, -⟩ := map_eq_cons_iff.mp same
    rfl
  | cons event events ih =>
    obtain ⟨⟨found, mark⟩, rest, rfl, rfl, later⟩ := map_eq_cons_iff.mp same
    have notEnd : found ≠ .streamEnd := fun isEnd => inside (isEnd ▸ List.mem_cons_self)
    have step : readEvents yaml failure ((found, mark) :: rest) state =
        match advance yaml state found with
        | .error reason => .error (reason.message mark)
        | .ok next => readEvents yaml failure rest next := by
      cases found <;> first | rfl | exact absurd rfl notEnd
    rw [step, feed_cons]
    cases advance yaml state found with
    | error reason => rfl
    | ok next => exact ih (fun isIn => inside (List.mem_cons_of_mem _ isIn)) later next

variable {yaml} {state : Reading N}

theorem countNode_ok (few : state.nodes + 1 ≤ maxNodes) (shallow : state.stack.length < maxDepth) :
    countNode state = .ok { state with nodes := state.nodes + 1 } := by
  rw [countNode, if_neg]
  simp only [Bool.or_eq_true, decide_eq_true_eq]
  omega

theorem countNode_deep (deep : ¬ state.stack.length < maxDepth) :
    ∃ reason, countNode state = .error reason := by
  refine ⟨_, if_pos ?_⟩
  simp only [Bool.or_eq_true, decide_eq_true_eq]
  exact .inr (Nat.not_lt.mp deep)

/-- A scalar is counted, and then appended. -/
theorem advance_scalar (state : Reading N) (text : Text) (style : ScalarStyle) :
    advance yaml state (.scalar text style 0 false) =
      (countNode state).bind (appendValue (scalarValue yaml text style)) := rfl

theorem fits_depth {depth : Nat} {value : Json N} (fit : fits depth value = true) :
    depth < maxDepth := by
  cases value <;> simp only [fits, Bool.and_eq_true, decide_eq_true_eq] at fit <;>
    first | exact fit | exact fit.1

variable (yaml)

/-- The events of a scalar. -/
theorem feed_scalar (state : Reading N) (text : Text) (style : ScalarStyle)
    (few : state.nodes + 1 ≤ maxNodes) :
    feed yaml [.scalar text style 0 false] state =
      if decide (state.stack.length < maxDepth) then
        (appendValue (scalarValue yaml text style) { state with nodes := state.nodes + 1 }).toOption
      else none := by
  rw [feed_cons, advance_scalar]
  by_cases shallow : state.stack.length < maxDepth
  · rw [countNode_ok few shallow, if_pos (decide_eq_true shallow)]
    exact Option.bind_fun_some _
  · obtain ⟨reason, refused⟩ := countNode_deep shallow
    rw [refused, if_neg (by simpa using shallow)]
    rfl

/-- The start of a collection, and what follows. -/
theorem feed_open {event : YamlEvent} {collection : Collection N} {events : List YamlEvent}
    (opens : advance yaml state event = openCollection collection 0 false state)
    (few : state.nodes + 1 ≤ maxNodes) :
    feed yaml (event :: events) state =
      if decide (state.stack.length < maxDepth) then
        feed yaml events { state with stack := collection :: state.stack, nodes := state.nodes + 1 }
      else none := by
  rw [feed_cons, opens, openCollection, if_neg (by simp)]
  by_cases shallow : state.stack.length < maxDepth
  · rw [countNode_ok few shallow, if_pos (decide_eq_true shallow)]
    rfl
  · obtain ⟨reason, refused⟩ := countNode_deep shallow
    rw [refused, if_neg (by simpa using shallow)]
    rfl

mutual

/-- **What the reader does with the events of a value.** -/
theorem feed_value (value : Json N) (state : Reading N)
    (few : state.nodes + countedNodes value ≤ maxNodes) (distinct : DistinctKeys value) :
    feed yaml (valueEvents display value) state =
      if fits state.stack.length value then
        (appendValue (reread display yaml value)
          { state with nodes := state.nodes + countedNodes value }).toOption
      else none :=
  match value with
  | .null => feed_scalar yaml state _ _ few
  | .bool true => feed_scalar yaml state _ _ few
  | .bool false => feed_scalar yaml state _ _ few
  | .num _ => feed_scalar yaml state _ _ few
  | .str _ => feed_scalar yaml state _ _ few
  | .arr items => by
      rw [countedNodes] at few
      rw [valueEvents, feed_open yaml rfl (by omega), feed_append,
        feed_items items [] state.stack state.root state.documents (state.nodes + 1) (by omega)
          distinct, fits, List.nil_append]
      cases decide (state.stack.length < maxDepth) with
      | false => rfl
      | true =>
        cases fits.fitItems (state.stack.length + 1) items with
        | false => rfl
        | true =>
          rw [countedNodes, ← Nat.add_assoc]
          exact Option.bind_fun_some _
  | .obj members => by
      rw [countedNodes] at few
      rw [valueEvents, feed_open yaml rfl (by omega), feed_append,
        feed_members members [] state.stack state.root state.documents (state.nodes + 1) (by omega)
          distinct.2 distinct.1, fits, List.nil_append]
      cases decide (state.stack.length < maxDepth) with
      | false => rfl
      | true =>
        cases fits.fitMembers (state.stack.length + 1) members with
        | false => rfl
        | true =>
          rw [countedNodes, ← Nat.add_assoc]
          exact Option.bind_fun_some _

theorem feed_items (items : List (Json N)) (done : List (Json N)) (outer : List (Collection N))
    (root : Option (Json N)) (documents nodes : Nat)
    (few : nodes + countedNodes.countedItems items ≤ maxNodes)
    (distinct : DistinctKeys.DistinctItems items) :
    feed yaml (valueEvents.itemEvents display items) ⟨.sequence done :: outer, root, documents, nodes⟩ =
      if fits.fitItems (outer.length + 1) items then
        some ⟨.sequence (done ++ reread.rereadItems display yaml items) :: outer, root, documents,
          nodes + countedNodes.countedItems items⟩
      else none :=
  match items with
  | [] => by simp [valueEvents.itemEvents, fits.fitItems, reread.rereadItems, countedNodes.countedItems]
  | item :: rest => by
      rw [countedNodes.countedItems] at few
      rw [valueEvents.itemEvents, feed_append, feed_value item _ (by simp only; omega) distinct.1,
        fits.fitItems, reread.rereadItems, countedNodes.countedItems]
      simp only [List.length_cons]
      cases fits (outer.length + 1) item with
      | false => rfl
      | true =>
        show feed yaml (valueEvents.itemEvents display rest)
          ⟨.sequence (done ++ [reread display yaml item]) :: outer, root, documents,
            nodes + countedNodes item⟩ = _
        rw [feed_items rest _ outer root documents _ (by omega) distinct.2, List.append_assoc,
          Nat.add_assoc]
        rfl

theorem feed_members (members : List (Text × Json N)) (done : List (Text × Json N))
    (outer : List (Collection N)) (root : Option (Json N)) (documents nodes : Nat)
    (few : nodes + countedNodes.countedMembers members ≤ maxNodes)
    (distinct : DistinctKeys.DistinctMembers members)
    (fresh : (done.map Prod.fst ++ members.map Prod.fst).Nodup) :
    feed yaml (valueEvents.memberEvents display members)
        ⟨.mapping done none :: outer, root, documents, nodes⟩ =
      if fits.fitMembers (outer.length + 1) members then
        some ⟨.mapping (done ++ reread.rereadMembers display yaml members) none :: outer, root,
          documents, nodes + countedNodes.countedMembers members⟩
      else none :=
  match members with
  | [] => by
      simp [valueEvents.memberEvents, fits.fitMembers, reread.rereadMembers,
        countedNodes.countedMembers]
  | (key, value) :: rest => by
      rw [countedNodes.countedMembers] at few
      have keyEvent := feed_scalar yaml
        (⟨.mapping done none :: outer, root, documents, nodes⟩ : Reading N) key .doubleQuoted
        (by simp only; omega)
      rw [valueEvents.memberEvents, ← List.singleton_append, feed_append, quotedEvent, keyEvent,
        fits.fitMembers]
      simp only [List.length_cons]
      by_cases shallow : outer.length + 1 < maxDepth
      · rw [if_pos (decide_eq_true shallow)]
        by_cases merge : key = "<<".toList
        · subst merge
          rfl
        · have unseen : (done.map Prod.fst).contains key = false := by
            rw [List.map_cons] at fresh
            have apart := (List.nodup_append'.mp fresh).2.2
            simpa using fun old => apart old List.mem_cons_self
          have opened : (appendValue (scalarValue yaml key .doubleQuoted)
              (⟨.mapping done none :: outer, root, documents, nodes + 1⟩ : Reading N)).toOption =
                some ⟨.mapping done (some key) :: outer, root, documents, nodes + 1⟩ := by
            simp only [appendValue, scalarValue, reduceCtorEq, if_false]
            rw [if_neg (by simpa using merge)]
            rfl
          rw [opened, Option.bind_some, feed_append,
            feed_value value _ (by simp only; omega) distinct.1]
          simp only [List.length_cons, bne_iff_ne.mpr merge, Bool.true_and]
          cases fits (outer.length + 1) value with
          | false => rfl
          | true =>
            have filled : (appendValue (reread display yaml value)
                (⟨.mapping done (some key) :: outer, root, documents,
                  nodes + 1 + countedNodes value⟩ : Reading N)).toOption =
                some ⟨.mapping (done ++ [(key, reread display yaml value)]) none :: outer, root,
                  documents, nodes + 1 + countedNodes value⟩ := by
              simp only [appendValue]
              rw [unseen]
              rfl
            have stillFresh : ((done ++ [(key, reread display yaml value)]).map Prod.fst ++
                rest.map Prod.fst).Nodup := by
              simpa using fresh
            rw [if_pos rfl, filled, Option.bind_some,
              feed_members rest _ outer root documents _ (by omega) distinct.2 stillFresh,
              List.append_assoc, countedNodes.countedMembers]
            simp only [Bool.true_and, reread.rereadMembers, List.singleton_append, Nat.add_assoc]
      · rw [if_neg (by simpa using shallow)]
        have deep : fits (outer.length + 1) value = false := by
          rw [← Bool.not_eq_true]
          exact fun fit => shallow (fits_depth fit)
        simp [deep]

end

omit yaml in
mutual

/-- The stream does not end inside a value. -/
theorem streamEnd_notMem_value (value : Json N) : YamlEvent.streamEnd ∉ valueEvents display value :=
  match value with
  | .null | .bool _ | .num _ | .str _ => by simp [valueEvents, plainEvent, quotedEvent]
  | .arr items => by
      have inside := streamEnd_notMem_items items
      simpa [valueEvents] using inside
  | .obj members => by
      have inside := streamEnd_notMem_members members
      simpa [valueEvents] using inside

theorem streamEnd_notMem_items (items : List (Json N)) :
    YamlEvent.streamEnd ∉ valueEvents.itemEvents display items :=
  match items with
  | [] => nofun
  | item :: rest => by
      rw [valueEvents.itemEvents, List.mem_append, not_or]
      exact ⟨streamEnd_notMem_value item, streamEnd_notMem_items rest⟩

theorem streamEnd_notMem_members (members : List (Text × Json N)) :
    YamlEvent.streamEnd ∉ valueEvents.memberEvents display members :=
  match members with
  | [] => nofun
  | (_, value) :: rest => by
      rw [valueEvents.memberEvents, List.mem_cons, List.mem_append, not_or, not_or]
      exact ⟨nofun, streamEnd_notMem_value value, streamEnd_notMem_members rest⟩

end

/-- A document is accepted when it fits. -/
theorem readDocument {text : Text} {members : List (Text × Json N)}
    (reads : yaml.ReadsAs display text (.obj members))
    (few : countedNodes (.obj members) ≤ maxNodes) (distinct : DistinctKeys (.obj members)) :
    ((readEvents yaml (yaml.parse text).failure (yaml.parse text).events ⟨[], none, 0, 0⟩) >>=
        finishDocument).toOption =
      if fits 0 (.obj members) then some (reread display yaml (.obj members)) else none := by
  let value : Json N := .obj members
  have inside : YamlEvent.streamEnd ∉
      .streamStart :: .documentStart :: (valueEvents display value ++ [.documentEnd]) := by
    have inValue := streamEnd_notMem_value display value
    simpa using inValue
  have split : (yaml.parse text).events.map Prod.fst =
      (.streamStart :: .documentStart :: (valueEvents display value ++ [.documentEnd])) ++
        [.streamEnd] := by
    rw [reads, documentEvents]
    simp [value]
  have run := readEvents_toOption yaml (yaml.parse text).failure inside split ⟨[], none, 0, 0⟩
  have fed : feed yaml (.streamStart :: .documentStart ::
      (valueEvents display value ++ [.documentEnd])) (⟨[], none, 0, 0⟩ : Reading N) =
        if fits 0 value then
          some ⟨[], some (reread display yaml value), 1, countedNodes value⟩
        else none := by
    show feed yaml (valueEvents display value ++ [.documentEnd])
      (⟨[], none, 1, 0⟩ : Reading N) = _
    rw [feed_append, feed_value display yaml value _ (by simpa using few) distinct]
    simp only [List.length_nil, Nat.zero_add]
    cases fits 0 value <;> rfl
  rw [toOption_bind, run, fed]
  cases fits 0 value <;> rfl

end Feed

/-! ## Written documents -/

/-- The text leaves the walk over surrogate pairs as it is and outside of strings, and it
has no NUL. -/
structure Printable (text : Text) : Prop where
  kept : ∀ rest, normalizeFrom false (text ++ rest) = text ++ normalizeFrom false rest
  noNul : '\x00' ∉ text

theorem Printable.nil : Printable [] := ⟨fun _ => rfl, nofun⟩

theorem Printable.append {first second : Text} (one : Printable first) (two : Printable second) :
    Printable (first ++ second) where
  kept rest := by rw [List.append_assoc, one.kept, two.kept, List.append_assoc]
  noNul isIn := (List.mem_append.mp isIn).elim one.noNul two.noNul

/-- Outside of strings only quotes matter. -/
theorem printable_plain {text : Text} (plain : ∀ c ∈ text, c ≠ '"' ∧ c ≠ '\x00') :
    Printable text := by
  induction text with
  | nil => exact .nil
  | cons c rest ih =>
    obtain ⟨notQuote, notNul⟩ := plain c mem_cons_self
    have later := ih fun d member => plain d (mem_cons_of_mem _ member)
    refine ⟨fun more => ?_, ?_⟩
    · rw [cons_append, normalizeFrom, if_neg notQuote, if_neg (by simp), later.kept]
      rfl
    · rw [mem_cons, not_or]
      exact ⟨Ne.symm notNul, later.noNul⟩

theorem normalize_pair {e : Char} (notU : e ≠ 'u') (rest : Text) :
    normalizeFrom true ('\\' :: e :: rest) = '\\' :: e :: normalizeFrom true rest := by
  have none : surrogatePair ('\\' :: e :: rest) = none := by
    rw [surrogatePair]
    split
    · rfl
    · have noEscape : unicodeEscape (('\\' :: e :: rest).take 6) = .none := by
        rw [unicodeEscape]
        simp [Ne.symm notU]
      rw [noEscape]
      rfl
  rw [normalizeFrom, none]
  rfl

theorem normalize_copy {c : Char} (notQuote : c ≠ '"') (notEscape : c ≠ '\\') (rest : Text) :
    normalizeFrom true (c :: rest) = c :: normalizeFrom true rest := by
  rw [normalizeFrom, if_neg notQuote, if_neg fun both => notEscape both.1]

/-- An escape of a control character is read as that character, which is no surrogate. -/
theorem unicodeEscape_control : ∀ n < 32, unicodeEscape
    ['\\', 'u', '0', '0', Json.hexDigit (n / 16), Json.hexDigit (n % 16)] = some n := by
  decide

theorem hexDigit_plain : ∀ n < 16, Json.hexDigit n ≠ '"' ∧ Json.hexDigit n ≠ '\\' ∧
    Json.hexDigit n ≠ '\x00' := by
  decide

theorem normalize_control {n : Nat} (small : n < 32) (rest : Text) :
    normalizeFrom true
        ('\\' :: 'u' :: '0' :: '0' :: Json.hexDigit (n / 16) :: Json.hexDigit (n % 16) :: rest) =
      '\\' :: 'u' :: '0' :: '0' :: Json.hexDigit (n / 16) :: Json.hexDigit (n % 16) ::
        normalizeFrom true rest := by
  have none : surrogatePair ('\\' :: 'u' :: '0' :: '0' :: Json.hexDigit (n / 16) ::
      Json.hexDigit (n % 16) :: rest) = none := by
    rw [surrogatePair]
    split
    · rfl
    · simp only [take_succ_cons, take_zero, unicodeEscape_control n small,
        Option.bind_some, Option.bind_eq_none_iff]
      intro low _
      rw [if_neg]
      omega
  obtain ⟨firstQuote, firstEscape, -⟩ := hexDigit_plain (n / 16) (by omega)
  obtain ⟨secondQuote, secondEscape, -⟩ := hexDigit_plain (n % 16) (by omega)
  rw [normalizeFrom, if_neg (by decide), if_pos (by decide), none]
  simp only [take_succ_cons, take_zero, drop_succ_cons, drop_zero, singleton_append]
  rw [normalize_copy (by decide) (by decide), normalize_copy (by decide) (by decide),
    normalize_copy firstQuote firstEscape, normalize_copy secondQuote secondEscape]

variable (c : Char)

/-- The three ways in which a character is written. -/
theorem escape_cases :
    (∃ e, e ≠ 'u' ∧ e ≠ '\x00' ∧ Json.escape c = ['\\', e]) ∨
    (c.toNat < 32 ∧ Json.escape c =
      ['\\', 'u', '0', '0', Json.hexDigit (c.toNat / 16), Json.hexDigit (c.toNat % 16)]) ∨
    (c ≠ '"' ∧ c ≠ '\\' ∧ c ≠ '\x00' ∧ Json.escape c = [c]) := by
  rw [Json.escape]
  split
  · exact .inl ⟨_, by decide, by decide, rfl⟩
  next notQuote =>
    split
    · exact .inl ⟨_, by decide, by decide, rfl⟩
    next notEscape =>
      iterate 5
        split
        · exact .inl ⟨_, by decide, by decide, rfl⟩
      split
      next control => exact .inr (.inl ⟨UInt32.lt_iff_toNat_lt.mp control, rfl⟩)
      next notControl =>
        refine .inr (.inr ⟨notQuote, notEscape, ?_, rfl⟩)
        rintro rfl
        exact notControl (by decide)

/-- Inside a string, a written character stays as it is. -/
theorem normalize_escape (rest : Text) :
    normalizeFrom true (Json.escape c ++ rest) = Json.escape c ++ normalizeFrom true rest := by
  obtain ⟨e, notU, -, short⟩ | ⟨control, long⟩ | ⟨notQuote, notEscape, -, copied⟩ := escape_cases c
  · rw [short]
    exact normalize_pair notU rest
  · rw [long]
    exact normalize_control control rest
  · rw [copied]
    exact normalize_copy notQuote notEscape rest

theorem nul_notMem_escape : '\x00' ∉ Json.escape c := by
  obtain ⟨e, -, notNul, short⟩ | ⟨control, long⟩ | ⟨-, -, notNul, copied⟩ := escape_cases c
  · simp [short, Ne.symm notNul]
  · have first := (hexDigit_plain (c.toNat / 16) (by omega)).2.2
    have second := (hexDigit_plain (c.toNat % 16) (by omega)).2.2
    simp [long, Ne.symm first, Ne.symm second]
  · simp [copied, Ne.symm notNul]

theorem printable_quote (text : Text) : Printable (Json.quote text) := by
  have inside : ∀ rest, normalizeFrom true (text.flatMap Json.escape ++ '"' :: rest) =
      text.flatMap Json.escape ++ '"' :: normalizeFrom false rest := by
    intro rest
    induction text with
    | nil => exact normalizeFrom.eq_2 true '"' rest
    | cons c more ih => rw [List.flatMap_cons, List.append_assoc, normalize_escape, ih,
        List.append_assoc]
  refine ⟨fun rest => ?_, ?_⟩
  · rw [Json.quote, List.cons_append, List.cons_append, List.append_assoc,
      normalizeFrom]
    show '"' :: normalizeFrom true (text.flatMap Json.escape ++ '"' :: rest) = _
    rw [inside]
    simp
  · rw [Json.quote]
    simp only [List.cons_append, List.mem_cons, List.mem_append, List.mem_flatMap,
      List.not_mem_nil, or_false, not_or, not_exists, not_and]
    exact ⟨by decide, fun c _ => nul_notMem_escape c, by decide⟩

section Printed

variable {N : Type} {display : N → Text}

/-- The texts of numbers have no quotes and no NUL. -/
def PlainNumbers (display : N → Text) : Prop := ∀ n, ∀ c ∈ display n, c ≠ '"' ∧ c ≠ '\x00'

theorem printable_char (plain : c ≠ '"' ∧ c ≠ '\x00') : Printable [c] :=
  printable_plain fun _ member => List.mem_singleton.mp member ▸ plain

theorem printable_of_all {text : Text} (plain : (text.all fun c => c ≠ '"' && c ≠ '\x00') = true) :
    Printable text :=
  printable_plain (by simpa using plain)

theorem printable_null : Printable "null".toList := printable_of_all (by decide)

theorem printable_literal (value : Bool) : Printable (Json.literal value) := by
  cases value <;> exact printable_of_all (by decide)

theorem printable_newLine (level : Nat) : Printable (Json.newLine level) := by
  refine printable_plain fun c member => ?_
  rw [Json.newLine, mem_cons, mem_replicate] at member
  rcases member with rfl | ⟨-, rfl⟩ <;> decide

mutual

theorem printable_compact (numbers : PlainNumbers display) (value : Json N) :
    Printable (value.compact display) :=
  match value with
  | .null => printable_null
  | .bool value => printable_literal value
  | .num n => printable_plain (numbers n)
  | .str text => printable_quote text
  | .arr items =>
    ((printable_char '[' (by decide)).append
      (printable_compactItems numbers items)).append (printable_of_all (by decide))
  | .obj members =>
    ((printable_char '\x7b' (by decide)).append
      (printable_compactMembers numbers members)).append (printable_of_all (by decide))

theorem printable_compactItems (numbers : PlainNumbers display) (items : List (Json N)) :
    Printable (Json.compact.compactItems display items) :=
  match items with
  | [] => .nil
  | [item] => printable_compact numbers item
  | item :: other :: rest =>
    (printable_compact numbers item).append
      ((printable_char ',' (by decide)).append (printable_compactItems numbers (other :: rest)))

theorem printable_compactMembers (numbers : PlainNumbers display) (members : List (Text × Json N)) :
    Printable (Json.compact.compactMembers display members) :=
  match members with
  | [] => .nil
  | [(key, value)] =>
    (printable_quote key).append
      ((printable_char ':' (by decide)).append (printable_compact numbers value))
  | (key, value) :: other :: rest =>
    ((printable_quote key).append
      ((printable_char ':' (by decide)).append (printable_compact numbers value))).append
      ((printable_char ',' (by decide)).append (printable_compactMembers numbers (other :: rest)))

end

mutual

theorem printable_pretty (numbers : PlainNumbers display) (level : Nat) (value : Json N) :
    Printable (value.pretty display level) :=
  match value with
  | .null => printable_null
  | .bool value => printable_literal value
  | .num n => printable_plain (numbers n)
  | .str text => printable_quote text
  | .arr [] => (printable_of_all (by decide) : Printable "[]".toList)
  | .arr (item :: rest) =>
    (((printable_char '[' (by decide)).append
      (printable_prettyItems numbers (level + 1) (item :: rest))).append
        (printable_newLine level)).append (printable_of_all (by decide))
  | .obj [] => (printable_of_all (by decide) : Printable ['\x7b', '\x7d'])
  | .obj (member :: rest) =>
    (((printable_char '\x7b' (by decide)).append
      (printable_prettyMembers numbers (level + 1) (member :: rest))).append
        (printable_newLine level)).append (printable_of_all (by decide))

theorem printable_prettyItems (numbers : PlainNumbers display) (level : Nat)
    (items : List (Json N)) :
    Printable (Json.pretty.prettyItems display level items) :=
  match items with
  | [] => .nil
  | [item] => (printable_newLine level).append (printable_pretty numbers level item)
  | item :: other :: rest =>
    ((printable_newLine level).append (printable_pretty numbers level item)).append
      ((printable_char ',' (by decide)).append
        (printable_prettyItems numbers level (other :: rest)))

theorem printable_prettyMembers (numbers : PlainNumbers display) (level : Nat)
    (members : List (Text × Json N)) :
    Printable (Json.pretty.prettyMembers display level members) :=
  match members with
  | [] => .nil
  | [(key, value)] =>
    (((printable_newLine level).append (printable_quote key)).append
      (printable_of_all (by decide))).append (printable_pretty numbers level value)
  | (key, value) :: other :: rest =>
    ((((printable_newLine level).append (printable_quote key)).append
      (printable_of_all (by decide))).append (printable_pretty numbers level value)).append
      ((printable_char ',' (by decide)).append
        (printable_prettyMembers numbers level (other :: rest)))

end

end Printed

theorem Printable.normalize {N : Type} {text : Text} (printable : Printable text)
    (yaml : YamlLibraries N) : normalizeJsonSurrogatePairs yaml text = text := by
  have whole : normalizeFrom false text = text := by
    have kept := printable.kept []
    rw [append_nil] at kept
    rw [kept, normalizeFrom, append_nil]
  rw [normalizeJsonSurrogatePairs, whole, ite_self]

/-! ## Bounds -/

section Bounds

variable {N : Type}

mutual

/-- Keys are counted too, but every key has a value. -/
theorem countedNodes_lt (depth : Nat) (value : Json N) :
    countedNodes value + 1 ≤ 2 * (value.nodes depth).length :=
  match value with
  | .null | .bool _ | .num _ | .str _ => by simp [countedNodes, Json.nodes]
  | .arr items => by
      have inside := countedItems_le (depth + 1) items
      rw [countedNodes, Json.nodes, length_cons]
      omega
  | .obj members => by
      have inside := countedMembers_le (depth + 1) members
      rw [countedNodes, Json.nodes, length_cons]
      omega

theorem countedItems_le (depth : Nat) (items : List (Json N)) :
    countedNodes.countedItems items ≤ 2 * (Json.nodes.itemNodes depth items).length :=
  match items with
  | [] => Nat.le_refl _
  | item :: rest => by
      have here := countedNodes_lt depth item
      have later := countedItems_le depth rest
      rw [countedNodes.countedItems, Json.nodes.itemNodes, length_append]
      omega

theorem countedMembers_le (depth : Nat) (members : List (Text × Json N)) :
    countedNodes.countedMembers members ≤ 2 * (Json.nodes.memberNodes depth members).length :=
  match members with
  | [] => Nat.le_refl _
  | (_, value) :: rest => by
      have here := countedNodes_lt depth value
      have later := countedMembers_le depth rest
      rw [countedNodes.countedMembers, Json.nodes.memberNodes, length_append]
      omega

end

/-- The nodes of the values still to visit. -/
def pendingNodes (pending : List (Json N × Nat)) : Nat :=
  (pending.map fun entry => (entry.1.nodes entry.2).length).sum

theorem length_nodes (depth : Nat) (value : Json N) :
    (value.nodes depth).length =
      1 + pendingNodes ((value.children.map (·, depth + 1)).reverse) := by
  have items : ∀ items : List (Json N), (Json.nodes.itemNodes (depth + 1) items).length =
      pendingNodes (items.map (·, depth + 1)) := by
    intro items
    induction items with
    | nil => rfl
    | cons item rest ih =>
      rw [Json.nodes.itemNodes, length_append, ih, Nat.add_comm]
      rfl
  have members : ∀ members : List (Text × Json N),
      (Json.nodes.memberNodes (depth + 1) members).length =
        pendingNodes ((members.map Prod.snd).map (·, depth + 1)) := by
    intro members
    induction members with
    | nil => rfl
    | cons member rest ih =>
      rw [Json.nodes.memberNodes, length_append, ih, Nat.add_comm]
      rfl
  have reversed : ∀ pending : List (Json N × Nat), pendingNodes pending.reverse =
      pendingNodes pending := fun pending => by
    rw [pendingNodes, map_reverse, sum_reverse]
    rfl
  rw [reversed]
  cases value with
  | arr values => rw [Json.nodes, length_cons, items, Nat.add_comm]; rfl
  | obj values => rw [Json.nodes, length_cons, members, Nat.add_comm]; rfl
  | _ => rfl

/-- A walk that succeeds has visited everything within its bound. -/
theorem boundedWalk_nodes {maxBytes left bytes : Nat} {pending : List (Json N × Nat)}
    (passed : boundedWalk maxBytes left pending bytes = .ok ()) : pendingNodes pending ≤ left := by
  induction left generalizing pending bytes with
  | zero =>
    cases pending with
    | nil => exact Nat.le_refl _
    | cons entry rest => cases passed
  | succ left ih =>
    cases pending with
    | nil => exact Nat.zero_le _
    | cons entry rest =>
      obtain ⟨value, depth⟩ := entry
      obtain ⟨_, passed⟩ := unless_ok passed
      obtain ⟨_, passed⟩ := unless_ok passed
      have later := ih passed
      have here := length_nodes depth value
      simp only [pendingNodes, map_append, sum_append, map_cons, sum_cons] at later here ⊢
      omega

/-- **What the export lets through, the import does not find too large.** -/
theorem boundedJson_counted {lib : Libraries N} {value : Json N} {maxBytes : Nat}
    (passed : boundedJson lib value maxBytes = .ok ()) :
    countedNodes value ≤ maxNodes ∧ byteLength (value.compact lib.display) ≤ maxBytes := by
  obtain ⟨walked, small⟩ := seq_ok passed
  have visited := boundedWalk_nodes walked
  have counted := countedNodes_lt 0 value
  simp only [pendingNodes, map_cons, map_nil, sum_cons, sum_nil] at visited
  refine ⟨by rw [maxNodes]; omega, ?_⟩
  simpa using ensure_ok.mp small

end Bounds

end Alera.Orchestration.Recipes
