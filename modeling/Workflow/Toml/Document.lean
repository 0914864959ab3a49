import Workflow.Toml.Scalar
import Workflow.Toml.Node

/-!
# Reading TOML

A document is a sequence of lines: headers, which say what table the following lines are about, and
values under keys.
-/
namespace Workflow.Toml

mutual

/-- A value. At most `n` readers may follow one another, and fewer than `maxDepth` values may be
inside one another, of which `depth` are left. -/
def value? : Nat → Nat → Reader Json
  | 0, _, _ => none
  | n + 1, depth, cs =>
    match cs with
    | '[' :: rest => if depth = 0 then none else items? n (depth - 1) [] (skipLines false rest)
    | '\x7b' :: rest =>
      if depth = 0 then none
      else
        match skipBlanks rest with
        | '\x7d' :: after => some (.obj .empty, after)
        | rest => members? n (depth - 1) .empty rest
    | '"' :: _ => (string? cs).map fun p => (.str p.1, p.2)
    | '\'' :: _ => (string? cs).map fun p => (.str p.1, p.2)
    | 't' :: _ => word? cs
    | 'f' :: _ => word? cs
    | _ => numberOrDate? cs

/-- The items of a list up to its closing bracket; those before are given. -/
def items? : Nat → Nat → List Json → Reader Json
  | 0, _, _, _ => none
  | n + 1, depth, acc, cs =>
    match cs with
    | ']' :: rest => some (.arr acc, rest)
    | _ => do
      let (v, rest) ← value? n depth cs
      match skipLines false rest with
      | ',' :: rest => items? n depth (acc ++ [v]) (skipLines false rest)
      | ']' :: rest => return (.arr (acc ++ [v]), rest)
      | _ => none

/-- The members of a table on one line up to its closing brace, added to those before. -/
def members? : Nat → Nat → Table Node → Reader Json
  | 0, _, _, _ => none
  | n + 1, depth, acc, cs => do
    let (key, rest) ← key? cs
    let rest ← expect '=' rest
    let (v, rest) ← value? n depth (skipBlanks rest)
    let acc ← Node.assign key v acc
    match skipBlanks rest with
    | ',' :: rest => members? n depth acc rest
    | '\x7d' :: rest => return (.obj (Node.tableToJson acc), rest)
    | _ => none

end

/-- What has been read of a document: its tables, and the key of the table that lines are about. -/
structure Draft where
  root : Table Node
  current : List String

/-- Adds a value to the table that lines are about. -/
def Draft.assign (d : Draft) (key : List String) (v : Json) : Option Draft :=
  (Node.descend false (fun _ t => Node.assign key v t) d.current .defined d.root).map
    fun root => { d with root }

/-- Reads a header or a value under a key, with the end of its line. -/
def line? (d : Draft) (cs : List Char) : Option (Draft × List Char) :=
  match cs with
  | '[' :: '[' :: rest => do
    let (key, rest) ← key? rest
    let rest ← lineEnd? (← (expect ']' rest).bind (expect ']'))
    return (⟨← Node.defineItem key d.root, key⟩, rest)
  | '[' :: rest => do
    let (key, rest) ← key? rest
    let rest ← lineEnd? (← expect ']' rest)
    return (⟨← Node.define key d.root, key⟩, rest)
  | _ => do
    let (key, rest) ← key? cs
    let rest ← expect '=' rest
    let (v, rest) ← value? (2 * rest.length + 1) (maxDepth - 1) (skipBlanks rest)
    let rest ← lineEnd? rest
    return (← d.assign key v, rest)

def lines? : Nat → Draft → List Char → Option Draft
  | 0, d, cs => if cs.isEmpty then some d else none
  | n + 1, d, cs =>
    match skipBlanks cs with
    | [] => some d
    | '#' :: rest => (lineEnd? ('#' :: rest)).bind (lines? n d)
    | '\n' :: rest => lines? n d rest
    | '\r' :: rest => (newline? ('\r' :: rest)).bind (lines? n d)
    | rest => (line? d rest).bind fun p => lines? n p.1 p.2

/-- The text without the mark at its start that tells the order of bytes. -/
def skipMark : List Char → List Char
  | '\ufeff' :: rest => rest
  | cs => cs

def read? (text : String) : Option (Table Json) :=
  let cs := skipMark text.toList
  (lines? cs.length ⟨.empty, []⟩ cs).map fun d => Node.tableToJson d.root

end Workflow.Toml
