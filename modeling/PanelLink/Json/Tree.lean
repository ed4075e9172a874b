/-
**The value that JSON tokens form.**

* `Tree`: a JSON value;
* `step?`: one token, taken by a machine whose stack holds the values that are still open;
* `parse?`: the value of a text that holds one value and nothing else.
-/

import PanelLink.Json.Token

namespace PanelLink.Json

inductive Tree where
  | null
  | boolean (value : Bool)
  | number (value : Option Nat)
  | text (value : Option String)
  | array (items : List Tree)
  | object (entries : List (Option String × Tree))
  deriving Repr

/-- A value that is still open, with what it holds so far, the latest first. -/
inductive Frame where
  | array (items : List Tree)
  | object (entries : List (Option String × Tree)) (key : Option String)
  deriving Repr

inductive Expected where
  /-- A value, or the end of an array that has none. -/
  | valueOrEnd
  | value
  /-- A key, or the end of an object that has none. -/
  | keyOrEnd (entries : List (Option String × Tree))
  | key (entries : List (Option String × Tree))
  | colon (entries : List (Option String × Tree)) (key : Option String)
  /-- A comma or the end of the value that is open. -/
  | separator
  | finished (tree : Tree)
  deriving Repr

structure State where
  stack : List Frame
  expected : Expected
  deriving Repr

namespace State

def complete (stack : List Frame) (tree : Tree) : State :=
  match stack with
  | [] => { stack := [], expected := .finished tree }
  | .array items :: outer => { stack := .array (tree :: items) :: outer, expected := .separator }
  | .object entries key :: outer =>
    { stack := .object ((key, tree) :: entries) key :: outer, expected := .separator }

/-- The state after a token that begins a value. -/
def begin? (stack : List Frame) : Token → Option State
  | .null => some (complete stack .null)
  | .boolean value => some (complete stack (.boolean value))
  | .number value => some (complete stack (.number value))
  | .text value => some (complete stack (.text value))
  | .openBracket => some { stack := .array [] :: stack, expected := .valueOrEnd }
  | .openBrace => some { stack, expected := .keyOrEnd [] }
  | _ => none

def step? (state : State) (token : Token) : Option State :=
  match state.expected, token, state.stack with
  | .valueOrEnd, .closeBracket, .array items :: outer =>
    some (complete outer (.array items.reverse))
  | .valueOrEnd, token, stack => begin? stack token
  | .value, token, stack => begin? stack token
  | .keyOrEnd entries, .closeBrace, stack => some (complete stack (.object entries.reverse))
  | .keyOrEnd entries, .text key, stack => some { stack, expected := .colon entries key }
  | .key entries, .text key, stack => some { stack, expected := .colon entries key }
  | .colon entries key, .colon, stack =>
    some { stack := .object entries key :: stack, expected := .value }
  | .separator, .comma, .array items :: outer =>
    some { stack := .array items :: outer, expected := .value }
  | .separator, .closeBracket, .array items :: outer =>
    some (complete outer (.array items.reverse))
  | .separator, .comma, .object entries _ :: outer =>
    some { stack := outer, expected := .key entries }
  | .separator, .closeBrace, .object entries _ :: outer =>
    some (complete outer (.object entries.reverse))
  | _, _, _ => none

end State

/-- The value of a text that holds one value and nothing else. -/
def parse? (text : String) : Option Tree := do
  let tokens ← tokenize? text
  let state ← tokens.foldlM State.step? { stack := [], expected := .value }
  match state.expected with
  | .finished tree => some tree
  | _ => none

end PanelLink.Json
