import Workflow.Yaml.Token.Lexer

/-!
# Nodes of a YAML document

A document is a scalar, a sequence, a mapping or an alias. The nodes of a document are numbered in
the order in which they begin. An anchor gets as its number the count of the different names used
so far, and an alias means the last node whose anchor got the number that the alias found under its
name; a name that is used twice can thus share its number with the next new one.
-/
namespace Workflow.Yaml

/-- A node with its number, and its tag if it has one. -/
inductive Node where
  | scalar (start : Nat) (tag : Option String) (plain : Bool) (text : String)
  | sequence (start : Nat) (tag : Option String) (items : List Node)
  | mapping (start : Nat) (tag : Option String) (pairs : List (Node × Node))
  | alias (start : Nat) (anchor : Nat)
  deriving Inhabited

mutual

def Node.find? (n : Nat) : Node → Option Node
  | .scalar start tag plain text => if start = n then some (.scalar start tag plain text) else none
  | .alias start anchor => if start = n then some (.alias start anchor) else none
  | .sequence start tag items =>
    if start = n then some (.sequence start tag items) else findItem? n items
  | .mapping start tag pairs =>
    if start = n then some (.mapping start tag pairs) else findPair? n pairs

/-- The node with a given number inside a list of nodes. -/
def findItem? (n : Nat) : List Node → Option Node
  | [] => none
  | v :: rest =>
    match v.find? n with
    | some w => some w
    | none => findItem? n rest

/-- The node with a given number inside a list of pairs. -/
def findPair? (n : Nat) : List (Node × Node) → Option Node
  | [] => none
  | (k, v) :: rest =>
    match k.find? n with
    | some w => some w
    | none =>
      match v.find? n with
      | some w => some w
      | none => findPair? n rest

end

/-- The tokens that are left and what has been learnt about nodes, anchors and tags. -/
structure Reader where
  tokens : List Token
  count : Nat := 0
  anchors : List (String × Nat) := []
  targets : List (Nat × Nat) := []
  handles : List (String × String) := []

namespace Reader

def peek (r : Reader) : Option Token := r.tokens.head?

def drop (r : Reader) : Reader := { r with tokens := r.tokens.drop 1 }

def isAt (r : Reader) (t : Token) : Bool := r.peek == some t

/-- Whether the next token is one of some given ones. -/
def isAtAny (r : Reader) (ts : List Token) : Bool := ts.any r.isAt

/-- Numbers a node that begins here and registers its anchor. -/
def begin (r : Reader) (anchor : Option String) : Nat × Reader :=
  let start := r.count
  let r := { r with count := start + 1 }
  match anchor with
  | none => (start, r)
  | some name =>
    let number := r.anchors.length
    let others := r.anchors.filter (fun a => a.1 != name)
    (start, { r with
      anchors := (name, number) :: others
      targets := (number, start) :: r.targets })

def empty (r : Reader) (anchor : Option String) (tag : Option String) : Node × Reader :=
  let (start, r) := r.begin anchor
  (.scalar start tag true "", r)

def anchor? (r : Reader) : Option String × Reader :=
  match r.peek with
  | some (.anchor name) => (some name, r.drop)
  | _ => (none, r)

def tag? (r : Reader) : Option (String × String) × Reader :=
  match r.peek with
  | some (.tag handle suffix) => (some (handle, suffix), r.drop)
  | _ => (none, r)

/-- The anchor and the tag in front of a node, in either order. -/
def properties (r : Reader) : Option String × Option (String × String) × Reader :=
  match r.anchor? with
  | (some a, r) => let (t, r) := r.tag?; (some a, t, r)
  | (none, r) =>
    match r.tag? with
    | (some t, r) => let (a, r) := r.anchor?; (a, some t, r)
    | (none, r) => (none, none, r)

/-- The full text of a tag; its handle must be known. -/
def resolveTag (r : Reader) : Option (String × String) → Option (Option String)
  | none => some none
  | some ("", suffix) => some (some suffix)
  | some (handle, suffix) =>
    (r.handles.lookup handle).map (fun start => some (start ++ suffix))

mutual

/-- A node. Block collections are allowed where `block` says so, and a sequence without
indentation of its own where `indentless` does. -/
def node (fuel : Nat) (block indentless : Bool) (r : Reader) : Option (Node × Reader) :=
  match fuel with
  | 0 => none
  | fuel + 1 =>
    match r.peek with
    | some (.alias name) =>
      let (start, r) := r.drop.begin none
      (r.anchors.lookup name).map (fun number => (.alias start number, r))
    | _ =>
      let (anchor, shorthand, r) := r.properties
      match r.resolveTag shorthand with
      | none => none
      | some tag =>
        let sequence (r : Reader) (items : Reader → Option (List Node × Reader)) :=
          let (start, r) := r.begin anchor
          (items r).map (fun p => (Node.sequence start tag p.1, p.2))
        let mapping (r : Reader) (pairs : Reader → Option (List (Node × Node) × Reader)) :=
          let (start, r) := r.begin anchor
          (pairs r).map (fun p => (Node.mapping start tag p.1, p.2))
        match r.peek with
        | some .blockEntry =>
          if indentless then sequence r (indentlessItems fuel)
          else if anchor.isSome || tag.isSome then some (r.empty anchor tag)
          else none
        | some (.scalar plain text) =>
          let (start, r) := r.begin anchor
          some (.scalar start (if tag == some "!" then none else tag) plain text, r.drop)
        | some .flowSequenceStart => sequence r.drop (flowItems fuel true)
        | some .flowMappingStart => mapping r.drop (flowPairs fuel true)
        | some .blockSequenceStart =>
          if block then sequence r.drop (blockItems fuel)
          else if anchor.isSome || tag.isSome then some (r.empty anchor tag)
          else none
        | some .blockMappingStart =>
          if block then mapping r.drop (blockPairs fuel)
          else if anchor.isSome || tag.isSome then some (r.empty anchor tag)
          else none
        | _ => if anchor.isSome || tag.isSome then some (r.empty anchor tag) else none

def blockItems (fuel : Nat) (r : Reader) : Option (List Node × Reader) :=
  match fuel with
  | 0 => none
  | fuel + 1 =>
    if r.isAt .blockEnd then some ([], r.drop)
    else if r.isAt .blockEntry then do
      let r := r.drop
      let (v, r) ← if r.isAtAny [.blockEntry, .blockEnd] then some (r.empty none none)
        else node fuel true false r
      let (vs, r) ← blockItems fuel r
      return (v :: vs, r)
    else none

/-- The items of a sequence without indentation of its own. -/
def indentlessItems (fuel : Nat) (r : Reader) : Option (List Node × Reader) :=
  match fuel with
  | 0 => none
  | fuel + 1 =>
    if r.isAt .blockEntry then do
      let r := r.drop
      let (v, r) ←
        if r.isAtAny [.blockEntry, .key, .value, .blockEnd] then some (r.empty none none)
        else node fuel true false r
      let (vs, r) ← indentlessItems fuel r
      return (v :: vs, r)
    else some ([], r)

def blockPairs (fuel : Nat) (r : Reader) : Option (List (Node × Node) × Reader) :=
  match fuel with
  | 0 => none
  | fuel + 1 =>
    if r.isAt .blockEnd then some ([], r.drop)
    else if r.isAt .key then do
      let r := r.drop
      let (k, r) ← if r.isAtAny [.key, .value, .blockEnd] then some (r.empty none none)
        else node fuel true true r
      let (v, r) ←
        if r.isAt .value then
          let r := r.drop
          if r.isAtAny [.key, .value, .blockEnd] then some (r.empty none none)
          else node fuel true true r
        else some (r.empty none none)
      let (rest, r) ← blockPairs fuel r
      return ((k, v) :: rest, r)
    else none

/-- The items of a sequence in brackets. A single pair stands for a mapping. -/
def flowItems (fuel : Nat) (first : Bool) (r : Reader) : Option (List Node × Reader) :=
  match fuel with
  | 0 => none
  | fuel + 1 =>
    if r.isAt .flowSequenceEnd then some ([], r.drop)
    else if !first && !r.isAt .flowEntry then none
    else
      let r := if first then r else r.drop
      if r.isAt .flowSequenceEnd then some ([], r.drop)
      else if r.isAt .key then do
        let (start, r) := r.drop.begin none
        let (k, r) ←
          if r.isAtAny [.value, .flowEntry, .flowSequenceEnd] then some (r.drop.empty none none)
          else node fuel false false r
        let (v, r) ←
          if r.isAt .value then
            let r := r.drop
            if r.isAtAny [.flowEntry, .flowSequenceEnd] then some (r.empty none none)
            else node fuel false false r
          else some (r.empty none none)
        let (vs, r) ← flowItems fuel false r
        return (.mapping start none [(k, v)] :: vs, r)
      else do
        let (v, r) ← node fuel false false r
        let (vs, r) ← flowItems fuel false r
        return (v :: vs, r)

def flowPairs (fuel : Nat) (first : Bool) (r : Reader) : Option (List (Node × Node) × Reader) :=
  match fuel with
  | 0 => none
  | fuel + 1 =>
    if r.isAt .flowMappingEnd then some ([], r.drop)
    else if !first && !r.isAt .flowEntry then none
    else
      let r := if first then r else r.drop
      if r.isAt .flowMappingEnd then some ([], r.drop)
      else if r.isAt .key then do
        let r := r.drop
        let (k, r) ←
          if r.isAtAny [.value, .flowEntry, .flowMappingEnd] then some (r.empty none none)
          else node fuel false false r
        let (v, r) ←
          if r.isAt .value then
            let r := r.drop
            if r.isAtAny [.flowEntry, .flowMappingEnd] then some (r.empty none none)
            else node fuel false false r
          else some (r.empty none none)
        let (rest, r) ← flowPairs fuel false r
        return ((k, v) :: rest, r)
      else do
        let (k, r) ← node fuel false false r
        let (v, r) := r.empty none none
        let (rest, r) ← flowPairs fuel false r
        return ((k, v) :: rest, r)

end

def defaultHandles : List (String × String) := [("!", "!"), ("!!", "tag:yaml.org,2002:")]

/-- The directives in front of a document: whether there are any, whether a version was given, and
the tag handles. -/
def directives (seen version : Bool) (handles : List (String × String)) :
    List Token → Option (Bool × List (String × String) × List Token)
  | .version major minor :: rest =>
    if version || major ≠ 1 || (minor ≠ 1 && minor ≠ 2) then none
    else directives true true handles rest
  | .tagDirective handle start :: rest =>
    if (handles.lookup handle).isSome then none
    else directives true version ((handle, start) :: handles) rest
  | rest => some (seen, handles, rest)

end Reader

/-- The only document of a stream: its root and the node that each anchor number means; none if
the stream has no document. -/
def document? (tokens : List Token) : Option (Option (Node × Reader)) := do
  let (directed, handles, rest) ← Reader.directives false false [] tokens
  let fuel := 4 * tokens.length + 8
  let r : Reader := { tokens := rest, handles := handles ++ Reader.defaultHandles }
  let body : Option (Option (Node × Reader)) :=
    match rest with
    | .documentStart :: _ =>
      let r := r.drop
      let bare := match r.peek with
        | none => true
        | some (.version ..) => true
        | some (.tagDirective ..) => true
        | some .documentStart => true
        | some .documentEnd => true
        | _ => false
      if bare then some (some (r.empty none none)) else (r.node fuel true false).map some
    | [] => if directed then none else some none
    | _ => if directed then none else (r.node fuel true false).map some
  match ← body with
  | none => return none
  | some (root, r) =>
    if (r.tokens.dropWhile (· == .documentEnd)).isEmpty then return some (root, r) else none

end Workflow.Yaml
