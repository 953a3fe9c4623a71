/-
**Faults of a source.**

What is wrong with a source that is no program, and where: a mark is missing, or a stretch of text is
not expected.

* `Script.Complaint`, `Script.Complaint.message` — what is wrong, and its wording;
* `Script.Position.ofOffset` — the line and the column of a byte;
* `Script.Fault` — a complaint with its position;
* `Script.MarkedTree` — a tree whose nodes tell whether a fault lies in them;
* `Script.MarkedTree.walk` — its nodes in the order of the document;
* `Script.MarkedTree.firstFault?` — the first faulty node, found without a visit to sound subtrees.
-/

import SketchHost.Text.Blank
import SketchHost.Text.Digit
import SketchHost.Text.Quoted

set_option relaxedAutoImplicit false
set_option autoImplicit false

namespace SketchHost

namespace Script

/-! ### Complaints -/

/-- What is wrong at a place. -/
inductive Complaint where
  /-- A token is not there; `what` is how it would be spelled. -/
  | missing (what : String)
  /-- A stretch of text has no place in the program. -/
  | unexpected (text : String)
deriving DecidableEq, Repr

/-- The number of characters of a stretch of text that a message shows. -/
def snippetLength : Nat := 24

/-- A line, cut short with dots if it is longer than a message shows. -/
def snippet (line : List Char) : List Char :=
  if line.length > snippetLength then line.take snippetLength ++ "...".toList else line

/-- The wording of a complaint: of a stretch of text, its first line without the blanks around it. -/
def Complaint.message : Complaint → String
  | missing what => "Missing " ++ Text.quotedString what
  | unexpected text =>
      match Text.trim text.toList with
      | [] => "Unexpected end of input"
      | shown => "Unexpected token " ++ String.ofList (Text.quoted (snippet (Text.firstLine shown)))

/-! ### Positions -/

/-- A line, counted from one, and the number of bytes before a place on it. -/
structure Position where
  line : Nat
  column : Nat
deriving DecidableEq, Repr, Inhabited

/-- The position after a character. -/
def Position.advance (p : Position) (c : Char) : Position :=
  if c == '\n' then ⟨p.line + 1, 0⟩ else ⟨p.line, p.column + c.utf8Size⟩

/-- The position of the byte at an offset, `p` being the position of the first character. -/
def Position.advanceTo (p : Position) : Nat → List Char → Position
  | 0, _ => p
  | _, [] => p
  | n + 1, c :: rest => (p.advance c).advanceTo (n + 1 - c.utf8Size) rest

/-- The position of the byte at an offset of a source. -/
def Position.ofOffset (source : List Char) (offset : Nat) : Position :=
  Position.advanceTo ⟨1, 0⟩ offset source

/-- How a position is named after a complaint. -/
def Position.message (p : Position) : String :=
  " (line " ++ String.ofList (Text.decimal p.line) ++ ", column "
    ++ String.ofList (Text.decimal p.column) ++ ")"

/-! ### Faults -/

/-- What is wrong with a source, and where. -/
structure Fault where
  complaint : Complaint
  position : Position
deriving DecidableEq, Repr

/-- What is wrong, without the position. -/
def Fault.detail (f : Fault) : String :=
  f.complaint.message

/-- The wording of a fault. -/
def Fault.message (f : Fault) : String :=
  f.detail ++ f.position.message

/-! ### Trees with marked faults -/

/-- A tree in which every node has a type, a text if there is one, a label, the mark that a fault
lies in it, and the mark that it stands for a missing token. -/
inductive MarkedTree (α : Type) where
  | node (type : String) (text : Option String) (label : α) (hasFault missing : Bool)
      (children : List (MarkedTree α))
deriving Repr, Inhabited

namespace MarkedTree

variable {α : Type}

/-- The type of the nodes that stand for a stretch of text without a place in the program. -/
def strayType : String := "ERROR"

/-- The label of a node. -/
def label : MarkedTree α → α
  | node _ _ l _ _ _ => l

/-- The mark that a fault lies in a node. -/
def hasFault : MarkedTree α → Bool
  | node _ _ _ f _ _ => f

/-- The children of a node. -/
def children : MarkedTree α → List (MarkedTree α)
  | node _ _ _ _ _ cs => cs

/-- A node that is a fault itself. -/
def isFault : MarkedTree α → Bool
  | node type _ _ _ missing _ => type == strayType || missing

/-- What is wrong at a faulty node. -/
def complaint : MarkedTree α → Complaint
  | node type text _ _ missing _ =>
      if missing then .missing type else .unexpected (text.getD "")

/-- All nodes, each before its descendants, siblings from left to right. -/
def preorder : MarkedTree α → List (MarkedTree α)
  | node type text l f m cs => node type text l f m cs :: preorderAll cs
where
  /-- The nodes of several trees, one tree after the other. -/
  preorderAll : List (MarkedTree α) → List (MarkedTree α)
    | [] => []
    | c :: rest => preorder c ++ preorderAll rest

/-! ### Walks with a stack -/

theorem sizeOf_children_lt (t : MarkedTree α) : sizeOf t.children < sizeOf t := by
  obtain ⟨type, text, l, f, m, cs⟩ := t
  rw [children, node.sizeOf_spec]
  omega

theorem sizeOf_append_add_one (xs ys : List (MarkedTree α)) :
    sizeOf (xs ++ ys) + 1 = sizeOf xs + sizeOf ys := by
  induction xs with
  | nil =>
      rw [List.nil_append, List.nil.sizeOf_spec]
      omega
  | cons x rest ih =>
      rw [List.cons_append, List.cons.sizeOf_spec, List.cons.sizeOf_spec]
      omega

theorem sizeOf_filter_le (p : MarkedTree α → Bool) (xs : List (MarkedTree α)) :
    sizeOf (xs.filter p) ≤ sizeOf xs := by
  induction xs with
  | nil => exact Nat.le_refl _
  | cons x rest ih =>
      rw [List.filter_cons]
      split <;> simp only [List.cons.sizeOf_spec] <;> omega

/-- The nodes of the trees on a stack: the uppermost one comes next, and its children are put in its
place. -/
def visit : List (MarkedTree α) → List (MarkedTree α)
  | [] => []
  | t :: stack => t :: visit (t.children ++ stack)
termination_by stack => sizeOf stack
decreasing_by
  have hchildren := sizeOf_children_lt t
  have happend := sizeOf_append_add_one t.children stack
  rw [List.cons.sizeOf_spec]
  omega

/-- The nodes of a tree in the order of the document. -/
def walk (root : MarkedTree α) : List (MarkedTree α) :=
  visit [root]

/-- The first faulty node of the trees on a stack, on which only marked children are put. -/
def search : List (MarkedTree α) → Option (MarkedTree α)
  | [] => none
  | t :: stack => if t.isFault then some t else search (t.children.filter hasFault ++ stack)
termination_by stack => sizeOf stack
decreasing_by
  have hchildren := sizeOf_children_lt t
  have hfilter := sizeOf_filter_le hasFault t.children
  have happend := sizeOf_append_add_one (t.children.filter hasFault) stack
  rw [List.cons.sizeOf_spec]
  omega

/-- The first faulty node of a tree whose root is marked; the root itself if no other one is found. -/
def firstFault? (root : MarkedTree α) : Option (MarkedTree α) :=
  if root.hasFault then some ((search [root]).getD root) else none

/-- A tree whose root is not marked has no fault. -/
@[simp] theorem firstFault?_of_not_hasFault {root : MarkedTree α} (h : root.hasFault = false) :
    root.firstFault? = none := by
  simp [firstFault?, h]

end MarkedTree

end Script

end SketchHost
