import SiteScript.Yaml.Token

/-!
# Nodes of YAML

What a YAML text describes: scalars, sequences and mappings, whose keys may repeat, and
aliases, which stand for another node.  The nodes are read from tokens; a place where a
node is missing counts as an empty plain scalar.
-/

namespace SiteScript.Yaml

/-- What may stand in front of a node. -/
structure Properties where
  anchor : Option Nat := none
  tag : Option Tag := none
  deriving Repr, DecidableEq, Inhabited

namespace Properties

/-- Reads properties, of which each may stand in front of the other. -/
def read : List Token → Properties × List Token
  | .anchor number :: .tag tag :: rest => (⟨number, tag⟩, rest)
  | .tag tag :: .anchor number :: rest => (⟨number, tag⟩, rest)
  | .anchor number :: rest => (⟨number, none⟩, rest)
  | .tag tag :: rest => (⟨none, tag⟩, rest)
  | rest => ({}, rest)

/-- A node with these properties by the number of its anchor, if there is one. -/
def numbered {α : Type} (properties : Properties) (node : α) : List (Nat × α) :=
  properties.anchor.toList.map (·, node)

/-- The name of the document's own kind that the tag says, if it does so. -/
def ownName? (properties : Properties) : Option String :=
  properties.tag.bind Tag.ownName?

/-- The properties of a scalar: a lone exclamation mark says no more than no tag. -/
def ofScalar (properties : Properties) : Properties :=
  if properties.tag = some .exclamation then { properties with tag := none } else properties

end Properties

/-- A node of a YAML document. -/
inductive Node where
  /-- The node whose anchor has this number. -/
  | alias (number : Nat)
  | scalar (properties : Properties) (text : String) (plain : Bool)
  | sequence (properties : Properties) (items : List Node)
  | mapping (properties : Properties) (entries : List (Node × Node))
  deriving Repr, Inhabited

namespace Node

/-- The node that a missing one counts as. -/
def missing : Node :=
  .scalar {} "" true

/-- What stands in front of a node. -/
def properties : Node → Properties
  | .alias _ => {}
  | .scalar properties _ _ => properties
  | .sequence properties _ => properties
  | .mapping properties _ => properties

end Node

/-- Whether no node follows inside a block: the collection goes on or ends. -/
def blockGoesOn : List Token → Bool
  | .blockEntry :: _ => true
  | .key :: _ => true
  | .value :: _ => true
  | .blockEnd :: _ => true
  | _ => false

/-- Whether no node follows inside brackets: the collection goes on or ends. -/
def flowGoesOn : List Token → Bool
  | .value :: _ => true
  | .flowEntry :: _ => true
  | .flowSequenceEnd :: _ => true
  | .flowMappingEnd :: _ => true
  | _ => false

mutual
/-- Reads a node, in at most `fuel` steps.  The value of a mapping may be a sequence that is not
indented; `bare` says whether that is so here. -/
def readNode? (bare : Bool) : Nat → List Token → Option (Node × List Token)
  | 0, _ => none
  | _ + 1, .alias number :: rest => some (.alias number, rest)
  | fuel + 1, tokens =>
    let (properties, tokens) := Properties.read tokens
    match tokens with
    | .scalar text plain :: rest => some (.scalar properties.ofScalar text plain, rest)
    | .blockSequenceStart :: rest => readBlockItems? properties fuel [] rest
    | .blockMappingStart :: rest => readBlockEntries? properties fuel [] rest
    | .flowSequenceStart :: rest => readFlowItems? properties true fuel [] rest
    | .flowMappingStart :: rest => readFlowEntries? properties true fuel [] rest
    | tokens =>
      if bare && tokens.head? == some .blockEntry then readBareItems? properties fuel [] tokens
      else if properties = {} then none
      else some (.scalar properties "" true, tokens)
/-- Reads the further items of a block sequence and its end. -/
def readBlockItems? (properties : Properties) :
    Nat → List Node → List Token → Option (Node × List Token)
  | 0, _, _ => none
  | fuel + 1, items, tokens =>
    match tokens with
    | .blockEnd :: rest => some (.sequence properties items.reverse, rest)
    | .blockEntry :: rest =>
      match rest with
      | .blockEntry :: _ => readBlockItems? properties fuel (.missing :: items) rest
      | .blockEnd :: _ => readBlockItems? properties fuel (.missing :: items) rest
      | _ => do
        let (item, rest) ← readNode? false fuel rest
        readBlockItems? properties fuel (item :: items) rest
    | _ => none
/-- Reads the further items of a sequence that is not indented; it ends with its last item. -/
def readBareItems? (properties : Properties) :
    Nat → List Node → List Token → Option (Node × List Token)
  | 0, _, _ => none
  | fuel + 1, items, tokens =>
    match tokens with
    | .blockEntry :: rest =>
      if blockGoesOn rest then readBareItems? properties fuel (.missing :: items) rest
      else do
        let (item, rest) ← readNode? false fuel rest
        readBareItems? properties fuel (item :: items) rest
    | _ => some (.sequence properties items.reverse, tokens)
/-- Reads the further entries of a block mapping and its end. -/
def readBlockEntries? (properties : Properties) :
    Nat → List (Node × Node) → List Token → Option (Node × List Token)
  | 0, _, _ => none
  | fuel + 1, entries, tokens =>
    match tokens with
    | .blockEnd :: rest => some (.mapping properties entries.reverse, rest)
    | .key :: rest => do
      let (key, rest) ← readBlockPart? fuel rest
      let (value, rest) ← match rest with
        | .value :: rest => readBlockPart? fuel rest
        | rest => some (.missing, rest)
      readBlockEntries? properties fuel ((key, value) :: entries) rest
    | _ => none
/-- Reads a key or value of a block mapping, which may be missing. -/
def readBlockPart? : Nat → List Token → Option (Node × List Token)
  | 0, _ => none
  | fuel + 1, tokens =>
    match tokens with
    | .key :: _ => some (.missing, tokens)
    | .value :: _ => some (.missing, tokens)
    | .blockEnd :: _ => some (.missing, tokens)
    | _ => readNode? true fuel tokens
/-- Reads the further items of a bracketed sequence and its end. -/
def readFlowItems? (properties : Properties) (first : Bool) :
    Nat → List Node → List Token → Option (Node × List Token)
  | 0, _, _ => none
  | fuel + 1, items, tokens =>
    match tokens with
    | .flowSequenceEnd :: rest => some (.sequence properties items.reverse, rest)
    | tokens => do
      let tokens ← if first then some tokens else
        match tokens with
        | .flowEntry :: rest => some rest
        | _ => none
      match tokens with
      | .flowSequenceEnd :: rest => return (.sequence properties items.reverse, rest)
      | .key :: rest =>
        let (entry, rest) ← readFlowPair? fuel rest
        readFlowItems? properties false fuel (.mapping {} [entry] :: items) rest
      | tokens =>
        let (item, rest) ← readNode? false fuel tokens
        readFlowItems? properties false fuel (item :: items) rest
/-- Reads the further entries of a bracketed mapping and its end. -/
def readFlowEntries? (properties : Properties) (first : Bool) :
    Nat → List (Node × Node) → List Token → Option (Node × List Token)
  | 0, _, _ => none
  | fuel + 1, entries, tokens =>
    match tokens with
    | .flowMappingEnd :: rest => some (.mapping properties entries.reverse, rest)
    | tokens => do
      let tokens ← if first then some tokens else
        match tokens with
        | .flowEntry :: rest => some rest
        | _ => none
      match tokens with
      | .flowMappingEnd :: rest => return (.mapping properties entries.reverse, rest)
      | .key :: rest =>
        let (entry, rest) ← readFlowEntry? fuel rest
        readFlowEntries? properties false fuel (entry :: entries) rest
      | tokens =>
        let (key, rest) ← readNode? false fuel tokens
        readFlowEntries? properties false fuel ((key, .missing) :: entries) rest
/-- Reads an entry that is an item of a bracketed sequence.  If its key is missing, the token that
shows this stands for the key. -/
def readFlowPair? : Nat → List Token → Option ((Node × Node) × List Token)
  | 0, _ => none
  | fuel + 1, tokens =>
    match tokens with
    | .value :: rest => readFlowValue? fuel .missing rest
    | .flowEntry :: rest => readFlowValue? fuel .missing rest
    | .flowSequenceEnd :: rest => readFlowValue? fuel .missing rest
    | _ => readFlowEntry? fuel tokens
/-- Reads the key and the value of an entry inside brackets, either of which may be missing. -/
def readFlowEntry? : Nat → List Token → Option ((Node × Node) × List Token)
  | 0, _ => none
  | fuel + 1, tokens => do
    let (key, rest) ← if flowGoesOn tokens then some (.missing, tokens)
      else readNode? false fuel tokens
    readFlowValue? fuel key rest
/-- Reads the value that belongs to a key inside brackets, which may be missing. -/
def readFlowValue? (fuel : Nat) (key : Node) (tokens : List Token) :
    Option ((Node × Node) × List Token) :=
  match fuel with
  | 0 => none
  | fuel + 1 =>
    match tokens with
    | .value :: rest => do
      let (value, rest) ← if flowGoesOn rest then some (.missing, rest)
        else readNode? false fuel rest
      return ((key, value), rest)
    | rest => some ((key, .missing), rest)
end

/-- Reads the node of a document that is not marked as begun, or whose mark has been read. -/
def readDocument? (tokens : List Token) : Option (Node × List Token) :=
  readNode? false (6 * tokens.length + 6) tokens

/-- Reads the node of a document whose mark has been read; it may be missing. -/
def readMarked? (tokens : List Token) : Option (Node × List Token) :=
  match tokens with
  | [] => some (.missing, tokens)
  | .directive :: _ => some (.missing, tokens)
  | .documentStart :: _ => some (.missing, tokens)
  | .documentEnd :: _ => some (.missing, tokens)
  | _ => readDocument? tokens

/-- Reads a text that holds one document, or none; that counts as a missing node.  Behind
directives the document has to be marked. -/
def parse? (text : String) : Option Node := do
  let tokens ← tokens? text.toList
  if tokens.isEmpty then return .missing
  let (node, rest) ← match tokens.dropWhile (· == .directive) with
    | .documentStart :: rest => readMarked? rest
    | rest => if tokens.head? == some .directive then none else readDocument? rest
  if rest.all (· == .documentEnd) then return node else none

end SiteScript.Yaml
