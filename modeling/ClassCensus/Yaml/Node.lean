import ClassCensus.Yaml.Token

/-!
# ClassCensus.Yaml.Node

The nodes of a YAML document, read from its tokens. A node may carry a tag, and an alias stands for
the node that was given its name before.
-/

namespace ClassCensus
namespace Yaml

inductive Node where
  | scalar (tag : Option Text) (text : Text) (plain : Bool)
  | list (tag : Option Text) (items : List Node)
  | map (tag : Option Text) (pairs : List (Node × Node))

namespace Node

/-- The node of a place left empty. -/
def empty : Node := .scalar none [] true

end Node

/-- The tokens ahead, and the nodes that have names. -/
structure Parse where
  tokens : List Token
  anchors : Table Text Node

namespace Parse

def head? (p : Parse) : Option Token := p.tokens.head?

def step (p : Parse) : Parse := { p with tokens := p.tokens.tail }

/-- Whether the next token is one of those given. -/
def facing (p : Parse) (ts : List Token) : Bool := p.head?.any ts.contains

def coreTag : Text := "tag:yaml.org,2002:"

/-- The full form of a tag. -/
def fullTag? (handle : Option Text) (suffix : Text) : Option Text :=
  match handle with
  | none => some suffix
  | some ['!'] => some ('!' :: suffix)
  | some ['!', '!'] => some (coreTag ++ suffix)
  | some _ => none

/-- The name and the tag in front of a node, in either order. -/
structure Properties where
  anchor : Option Text
  tag : Option Text

def properties? (p : Parse) : Option (Properties × Parse) :=
  match p.tokens with
  | .anchor name :: .tag handle suffix :: rest | .tag handle suffix :: .anchor name :: rest =>
    (fullTag? handle suffix).map fun tag => (⟨some name, some tag⟩, { p with tokens := rest })
  | .anchor name :: rest => some (⟨some name, none⟩, { p with tokens := rest })
  | .tag handle suffix :: rest =>
    (fullTag? handle suffix).map fun tag => (⟨none, some tag⟩, { p with tokens := rest })
  | _ => some (⟨none, none⟩, p)

/-- Gives a node its name, which must be new. -/
def named (anchor : Option Text) (result : Option (Node × Parse)) : Option (Node × Parse) :=
  match anchor, result with
  | some name, some (node, p) =>
    if Table.has p.anchors name then none
    else some (node, { p with anchors := Table.put p.anchors name node })
  | _, _ => result

mutual

/-- A node; `block` allows block collections, and `flush` a sequence that is not indented. -/
def node (block flush : Bool) : (fuel : Nat) → Parse → Option (Node × Parse)
  | 0, _ => none
  | fuel + 1, p =>
    match p.head? with
    | some (.alias name) => (Table.get? p.anchors name).map (·, p.step)
    | _ =>
      match p.properties? with
      | none => none
      | some (props, p) =>
        let tag := if props.tag = some ['!'] then none else props.tag
        let wrap (make : List Node → Node) (r : Option (List Node × Parse)) :=
          r.map fun (items, p) => (make items, p)
        let wrapPairs (r : Option (List (Node × Node) × Parse)) :=
          r.map fun (pairs, p) => (Node.map tag pairs, p)
        named props.anchor <|
          match p.head? with
          | some .entry =>
            if flush then wrap (.list tag) (flushItems fuel p) else none
          | some (.scalar text isPlain) =>
            some (.scalar tag text (isPlain || props.tag = some ['!']), p.step)
          | some .flowSequence => wrap (.list tag) (flowItems fuel true p.step)
          | some .flowMapping => wrapPairs (flowPairs fuel true p.step)
          | some .blockSequence =>
            if block then wrap (.list tag) (blockItems fuel p.step) else none
          | some .blockMapping => if block then wrapPairs (blockPairs fuel p.step) else none
          | _ =>
            if props.anchor.isSome || props.tag.isSome then some (.scalar tag [] true, p) else none

/-- A node, or nothing where one of the given tokens follows. -/
def nodeUnless (ends : List Token) (block flush : Bool) :
    (fuel : Nat) → Parse → Option (Node × Parse)
  | 0, _ => none
  | fuel + 1, p => if p.facing ends then some (.empty, p) else node block flush fuel p

/-- The items of an indented sequence. -/
def blockItems : (fuel : Nat) → Parse → Option (List Node × Parse)
  | 0, _ => none
  | fuel + 1, p =>
    match p.head? with
    | some .entry =>
      match nodeUnless [.entry, .blockEnd] true false fuel p.step with
      | none => none
      | some (item, p) => (blockItems fuel p).map fun (items, p) => (item :: items, p)
    | some .blockEnd => some ([], p.step)
    | _ => none

/-- The items of a sequence as far in as its parent. -/
def flushItems : (fuel : Nat) → Parse → Option (List Node × Parse)
  | 0, _ => none
  | fuel + 1, p =>
    match p.head? with
    | some .entry =>
      match nodeUnless [.entry, .key, .value, .blockEnd] true false fuel p.step with
      | none => none
      | some (item, p) => (flushItems fuel p).map fun (items, p) => (item :: items, p)
    | _ => some ([], p)

/-- The pairs of an indented mapping. -/
def blockPairs : (fuel : Nat) → Parse → Option (List (Node × Node) × Parse)
  | 0, _ => none
  | fuel + 1, p =>
    let ends : List Token := [.key, .value, .blockEnd]
    match p.head? with
    | some .key =>
      match nodeUnless ends true true fuel p.step with
      | none => none
      | some (key, p) =>
        let value :=
          if p.facing [.value] then nodeUnless ends true true fuel p.step else some (.empty, p)
        match value with
        | none => none
        | some (value, p) =>
          (blockPairs fuel p).map fun (pairs, p) => ((key, value) :: pairs, p)
    | some .blockEnd => some ([], p.step)
    | _ => none

/-- The items of a sequence in brackets; all but the first follow a comma. A pair may stand for a
mapping. -/
def flowItems : (fuel : Nat) → (first : Bool) → Parse → Option (List Node × Parse)
  | 0, _, _ => none
  | fuel + 1, first, p =>
    if p.facing [.flowSequenceEnd] then some ([], p.step)
    else if !first && !p.facing [.comma] then none
    else
      let p := if first then p else p.step
      if p.facing [.flowSequenceEnd] then some ([], p.step)
      else
        let item :=
          if p.facing [.key] then
            (flowPair .flowSequenceEnd fuel p.step).map fun (pair, p) =>
              (Node.map none [pair], p)
          else node false false fuel p
        match item with
        | none => none
        | some (item, p) => (flowItems fuel false p).map fun (items, p) => (item :: items, p)

/-- The pairs of a mapping in braces; a node without a mark is a key without a value. -/
def flowPairs :
    (fuel : Nat) → (first : Bool) → Parse → Option (List (Node × Node) × Parse)
  | 0, _, _ => none
  | fuel + 1, first, p =>
    if p.facing [.flowMappingEnd] then some ([], p.step)
    else if !first && !p.facing [.comma] then none
    else
      let p := if first then p else p.step
      if p.facing [.flowMappingEnd] then some ([], p.step)
      else
        let pair :=
          if p.facing [.key] then flowPair .flowMappingEnd fuel p.step
          else (node false false fuel p).map fun (key, p) => ((key, .empty), p)
        match pair with
        | none => none
        | some (pair, p) => (flowPairs fuel false p).map fun (pairs, p) => (pair :: pairs, p)

/-- A key and its value inside brackets or braces. -/
def flowPair (closing : Token) : (fuel : Nat) → Parse → Option ((Node × Node) × Parse)
  | 0, _ => none
  | fuel + 1, p =>
    match nodeUnless [.value, .comma, closing] false false fuel p with
    | none => none
    | some (key, p) =>
      if p.facing [.value] then
        (nodeUnless [.comma, closing] false false fuel p.step).map fun (value, p) =>
          ((key, value), p)
      else some ((key, .empty), p)

end

/-- Directives in front of a document: at most one version, which must be of the first kind. -/
def directives? (versioned : Bool) : List Token → Option (List Token)
  | .directive name value :: rest =>
    if name = "YAML".toList then
      match Text.splitFirst? ['.'] value with
      | some (major, minor) =>
        let isNumber (t : Text) : Bool := !t.isEmpty && t.all Json.isDigit
        if !versioned && isNumber minor && isNumber major && Json.digitsNumber major = 1 then
          directives? true rest
        else none
      | none => none
    else if name = "TAG".toList then none
    else directives? versioned rest
  | .documentStart :: rest => some rest
  | _ => none

/-- The tokens of the first document's content; it may start without a mark. -/
def content? (ts : List Token) : Option (List Token) :=
  match ts with
  | .directive _ _ :: _ | .documentStart :: _ => directives? false ts
  | _ => some ts

end Parse

/-- The node of the one document in a token sequence; `none` inside if there is no document. -/
def document? (ts : List Token) : Option (Option Node) :=
  if ts.isEmpty then some none
  else
    match Parse.content? ts with
    | none => none
    | some rest =>
      let explicit := rest.length < ts.length
      let idle := match rest with
        | [] => true
        | .directive _ _ :: _ | .documentStart :: _ | .documentEnd :: _ => true
        | _ => false
      let result :=
        if explicit && idle then some (Node.empty, ⟨rest, []⟩)
        else Parse.node true false (4 * ts.length + 4) ⟨rest, []⟩
      match result with
      | none => none
      | some (node, p) => if p.tokens.all (· = .documentEnd) then some (some node) else none

end Yaml
end ClassCensus
