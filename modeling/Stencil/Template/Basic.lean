import Stencil.Expr.Basic
import Stencil.Text.Quoted

/-!
# Template — Basic

A template is a list of siblings: data that stand for themselves, expressions whose values are
inserted, and the blocks of `if` and `for`, which hold siblings in turn.  The outline of a template
shows one sibling a line, and what a block holds indented.
-/

namespace Stencil

/-- A sibling of a template. -/
inductive Node where
  | data (text : String)
  | insert (e : Expr)
  | choose (condition : Expr) (holds fails : List Node)
  | loop (name : String) (items : Expr) (body : List Node)

/-- A template. -/
structure Template where
  body : List Node

namespace Node

/-- A line of an outline, indented by two spaces for each block around it. -/
def line (depth : Nat) (text : String) : String :=
  String.ofList (List.replicate (2 * depth) ' ') ++ text

/-- The lines of the outline of a sibling inside of `depth` blocks. -/
def outline (depth : Nat) : Node → List String
  | .data text => [line depth ("data " ++ String.ofList (Text.quoted text.toList))]
  | .insert e => [line depth ("expr " ++ e.text)]
  | .choose condition holds fails =>
    line depth ("if " ++ condition.text) :: outlines (depth + 1) holds ++
      (match fails with
        | [] => []
        | f :: fs => line depth "else" :: outlines (depth + 1) (f :: fs)) ++
      [line depth "end"]
  | .loop name items body =>
    line depth ("for " ++ name ++ " in " ++ items.text) :: outlines (depth + 1) body ++
      [line depth "end"]
where
  /-- The lines of the outlines of some siblings. -/
  outlines (depth : Nat) : List Node → List String
    | [] => []
    | n :: ns => outline depth n ++ outlines depth ns

/-- The depth of the recursion that makes the outline of a sibling: three calls for a block, and
those for the texts of its expressions. -/
def outlineDepth : Node → Nat
  | .data _ => 0
  | .insert e => e.textDepth
  | .choose condition holds fails =>
    max condition.textDepth (max (depths holds) (depths fails) + 3)
  | .loop _ items body => max items.textDepth (depths body + 3)
where
  /-- The greatest depth of the recursions that make the outlines of some siblings. -/
  depths : List Node → Nat
    | [] => 0
    | n :: ns => max n.outlineDepth (depths ns)

end Node

namespace Template

/-- The outline of a template. -/
def outline (t : Template) : String :=
  "\n".intercalate (Node.outline.outlines 0 t.body)

/-- The depth of the recursion that makes the outline of a template. -/
def outlineDepth (t : Template) : Nat :=
  Node.outlineDepth.depths t.body

end Template

end Stencil
