import MacroDoc.Markdown.Event

/-!
# Inline text and emphasis

* `Inline` : a node of inline text;
* `emphasize` : runs of delimiters paired into formatted text;
* `Inline.events`, `inlineEvents` : the events of inline text.

A run closes the nearest run of the same character that it may close. A run that can both open and close takes part
in a pair only if the lengths of the two runs do not add up to a multiple of three, or both are multiples of three.
Of a pair, two delimiters make strong text and a single one makes emphasis around that.
-/

namespace MacroDoc.Markdown

/-- A node of inline text. A run of delimiters may have some text at its end that belongs to the last of them. -/
inductive Inline where
  | text (text : List Char)
  | code (text : List Char)
  | html (text : List Char)
  | lineBreak (backslash : Bool)
  | delimiters (char : Char) (count : Nat) (opens closes : Bool) (tail : List Char)
  | span (tag : Tag) (children : List Inline)
  deriving Inhabited

/-- A run that may still be closed: how many of its delimiters are left, how many it had, whether it can close too,
and the nodes after it in reverse. -/
structure Opener where
  char : Char
  count : Nat
  runLength : Nat
  closesToo : Bool
  nodes : List Inline

/-- The nodes of an opener as plain text and what follows, in reverse. -/
def Opener.flatten (o : Opener) : List Inline :=
  o.nodes ++ [.text (List.replicate o.count o.char)]

/-- Runs that may still be closed, innermost first, and the nodes before them in reverse. Runs of tildes are not
closed below the bound, counted from the outermost run. -/
structure Openers where
  stack : List Opener
  base : List Inline
  tildeBound : Nat

namespace Openers

def append (o : Openers) (nodes : List Inline) : Openers :=
  match o.stack with
  | [] => { o with base := nodes ++ o.base }
  | top :: rest => { o with stack := { top with nodes := nodes ++ top.nodes } :: rest }

def closes (char : Char) (runLength : Nat) (opensToo : Bool) (o : Opener) : Bool :=
  o.char == char && (char != '~' || runLength == o.runLength)
    && ((!opensToo && !o.closesToo) || (runLength + o.runLength) % 3 != 0 || runLength % 3 == 0)

/-- The nearest opener above the bound that a run closes: the nodes after it in reverse, it, and the openers around
it. -/
def find? (p : Opener → Bool) (bound : Nat) (nodes : List Inline) :
    List Opener → Option (List Inline × Opener × List Opener)
  | [] => none
  | o :: rest =>
    if rest.length < bound then none
    else if p o then some (nodes ++ o.nodes, o, rest)
    else find? p bound (nodes ++ o.flatten) rest

/-- Wrap nodes, given in reverse, by `count` delimiters. -/
def wrap (char : Char) (count : Nat) (nodes : List Inline) : List Inline :=
  match count with
  | 0 => nodes
  | 1 => [.span (if char = '~' then .strikethrough else .emphasis) nodes.reverse]
  | count + 2 => wrap char count [.span (if char = '~' then .strikethrough else .strong) nodes.reverse]

/-- Close openers by a run of which `count` delimiters are left. -/
def close (char : Char) (runLength : Nat) (opensToo : Bool) : Nat → Nat → Openers → Nat × Openers
  | 0, count, o => (count, o)
  | fuel + 1, count, o =>
    if count = 0 then (0, o)
    else
      match find? (closes char runLength opensToo) (if char = '~' then o.tildeBound else 0) [] o.stack with
      | none => (count, if char = '~' then { o with tildeBound := o.stack.length } else o)
      | some (nodes, opener, rest) =>
        let used := min count opener.count
        let wrapped := wrap char used nodes
        let around : Openers := ⟨rest, o.base, min o.tildeBound rest.length⟩
        let next :=
          if used < opener.count then
            { around with stack := { opener with count := opener.count - used, nodes := wrapped } :: rest }
          else around.append wrapped
        close char runLength opensToo fuel (count - used) next

def add (o : Openers) (node : Inline) : Openers :=
  match node with
  | .delimiters char count opens closes tail =>
    let both := opens && closes
    let (left, o) := if closes then close char count both count count o else (count, o)
    let after := if tail.isEmpty then [] else [.text tail]
    if left = 0 then o
    else if opens then { o with stack := ⟨char, left, count, both, after⟩ :: o.stack }
    else o.append (after ++ [.text (List.replicate left char)])
  | node => o.append [node]

/-- All nodes, with the runs that are still open as plain text. -/
def finish (o : Openers) : List Inline :=
  (o.stack.flatMap Opener.flatten ++ o.base).reverse

end Openers

/-- Pair the runs of delimiters in a list of nodes. -/
def emphasize (nodes : List Inline) : List Inline :=
  (nodes.foldl Openers.add ⟨[], [], 0⟩).finish

mutual

def Inline.events : Inline → List Event
  | .text text => [.text text]
  | .code text => [.code text]
  | .html text => [.html text]
  | .lineBreak _ => [.lineBreak]
  | .delimiters char count _ _ tail => [.text (List.replicate count char ++ tail)]
  | .span tag children => .enter tag :: inlineEvents children ++ [.leave tag]

def inlineEvents : List Inline → List Event
  | [] => []
  | node :: nodes => node.events ++ inlineEvents nodes

end

end MacroDoc.Markdown
