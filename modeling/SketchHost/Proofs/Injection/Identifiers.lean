/-
**Identifiers in a script.**

The identifier of a run and the container are the only parts of a script that come from outside as they
are.  Each is put into one line as a literal.  What stands around the literal in this line, where the line
stands, and all the other lines are the same for every identifier, so none of them gets out of its literal.

The lines with the literals are made from templates in two ways: a mark in a line is replaced, or a line is
a format with named fields.  Neither way reads again what it puts in.

* `Text.replaced`, `Text.formatted?` — a template with what is put into it;
* `Injection.identifierLine_eq`, `Injection.sketchClosing_eq` — the lines with the literals are templates
  with the literals in them;
* `Injection.Embeds` — a line of a text holds the literal of a string, between two fixed parts;
* `Injection.DifferAt` — two texts differ, and only in one line;
* `Injection.Confined`, `Injection.confined_of_lines` — a string is confined to its literal;
* `Injection.identifiers_confined` — **identifiers do not get out of their literals**.
-/

import SketchHost.Proofs.Injection.Lines
import SketchHost.Proofs.Json.Literal

set_option relaxedAutoImplicit false
set_option autoImplicit false

namespace SketchHost

/-! ### Templates -/

namespace Text

/-- A text with every occurrence of a mark replaced; `passed` characters of the last one are left. -/
def replacedFrom (mark value : List Char) : Nat → List Char → List Char
  | _, [] => []
  | passed + 1, _ :: rest => replacedFrom mark value passed rest
  | 0, c :: rest =>
      if mark.isPrefixOf (c :: rest) then value ++ replacedFrom mark value (mark.length - 1) rest
      else c :: replacedFrom mark value 0 rest

/-- A text with every occurrence of a mark replaced, from left to right. -/
def replaced (mark value cs : List Char) : List Char :=
  replacedFrom mark value 0 cs

/-- A format with its fields filled in; `passed` characters of the last field are left. -/
def formattedFrom? (field? : List Char → Option (List Char)) : Nat → List Char → Option (List Char)
  | _, [] => some []
  | passed + 1, _ :: rest => formattedFrom? field? passed rest
  | 0, '\x7b' :: '\x7b' :: rest => (formattedFrom? field? 0 rest).map ('\x7b' :: ·)
  | 0, '\x7d' :: '\x7d' :: rest => (formattedFrom? field? 0 rest).map ('\x7d' :: ·)
  | 0, '\x7b' :: rest => do
      let name := rest.takeWhile (· != '\x7d')
      return (← field? name) ++ (← formattedFrom? field? (name.length + 1) rest)
  | 0, '\x7d' :: _ => none
  | 0, c :: rest => (formattedFrom? field? 0 rest).map (c :: ·)

/-- A format with one field filled in.  A doubled brace stands for a brace, and a name in braces for the
value of the field. -/
def formatted? (name value cs : List Char) : Option (List Char) :=
  formattedFrom? (fun given => if given = name then some value else none) 0 cs

end Text

namespace Injection

open LineMap (numberOfLines)

/-- The line with the identifier of the run is a line with its mark replaced by the literal. -/
theorem identifierLine_eq (id : String) :
    identifierLine id = Text.replaced "\x7bsketch_id\x7d".toList (Json.quote id.toList)
      "  bridge.sketchInstanceId = \x7bsketch_id\x7d;".toList := by
  unfold identifierLine
  generalize Json.quote id.toList = literal
  cbv

/-- The lines that close a sketch are formats with the literal of the container filled in. -/
theorem sketchClosing_eq (containerId : String) :
    ["  \x7d\x7d, document.getElementById(\x7bcontainer_id\x7d) || undefined);".toList,
      "  post(\x7b\x7b type: 'execution-complete' \x7d\x7d);".toList, "\x7d\x7d)();".toList].mapM
        (Text.formatted? "container_id".toList (Json.quote containerId.toList))
      = some (sketchClosing (.text containerId)) := by
  unfold sketchClosing Json.compact
  generalize Json.quote containerId.toList = literal
  cbv

/-! ### Confinement -/

/-- A line of a text is the literal of a string between two fixed parts. -/
def Embeds (t : List Char) (place : Nat) (lead tail : List Char) (s : String) : Prop :=
  ∃ literal, Json.IsLiteral literal s ∧ (Text.lines t)[place]? = some (lead ++ literal ++ tail)

/-- Two texts have as many lines, and they differ in one line only. -/
structure DifferAt (t t' : List Char) (place : Nat) : Prop where
  differ : t ≠ t'
  count : numberOfLines t = numberOfLines t'
  elsewhere : ∀ i, i ≠ place → (Text.lines t)[i]? = (Text.lines t')[i]?

/-- A string is confined to one line of what is built with it: the line is its literal between two fixed
parts, and the texts for two strings differ in this line only. -/
structure Confined (build : String → Script) (place : Nat) (lead tail : List Char) : Prop where
  embeds : ∀ s, Embeds (build s).text place lead tail s
  differ : ∀ s s', s ≠ s' → DifferAt (build s).text (build s').text place

/-- A string is confined if the lines before and after the one with its literal are always the same. -/
theorem confined_of_lines {build : String → Script} {lead tail : List Char}
    (before after : List (List Char))
    (h : ∀ s, Text.lines (build s).text = before ++ (lead ++ Json.quote s.toList ++ tail) :: after) :
    Confined build before.length lead tail where
  embeds s := by
    refine ⟨_, Json.isLiteral_quote s, ?_⟩
    rw [h, List.getElem?_append_right (Nat.le_refl _), Nat.sub_self, List.getElem?_cons_zero]
  differ s s' hne :=
    { differ := by
        intro htext
        have hlines : before ++ (lead ++ Json.quote s.toList ++ tail) :: after
            = before ++ (lead ++ Json.quote s'.toList ++ tail) :: after := by
          rw [← h, ← h, htext]
        have hline := (List.cons.inj (List.append_cancel_left hlines)).1
        have hliteral := List.append_cancel_left (List.append_cancel_right hline)
        -- one literal is read as one string
        exact hne ((hliteral ▸ Json.isLiteral_quote s).unique (Json.isLiteral_quote s'))
      count := by
        rw [numberOfLines, numberOfLines, h, h]
        simp only [List.length_append, List.length_cons]
      elsewhere := by
        intro i hi
        rw [h, h]
        rcases Nat.lt_or_ge i before.length with hlt | hle
        · rw [List.getElem?_append_left hlt, List.getElem?_append_left hlt]
        · obtain ⟨j, hj⟩ : ∃ j, i - before.length = j + 1 := ⟨i - before.length - 1, by omega⟩
          rw [List.getElem?_append_right hle, List.getElem?_append_right hle, hj,
            List.getElem?_cons_succ, List.getElem?_cons_succ] }

/-! ### The lines of identifiers -/

/-- What stands before and after the identifier of the run. -/
def identifierLead : List Char :=
  "  bridge.sketchInstanceId = ".toList

/-- What stands before the container. -/
def containerLead : List Char :=
  "  \x7d, document.getElementById(".toList

/-- What stands after the container. -/
def containerTail : List Char :=
  ") || undefined);".toList

/-- The line with the identifier of the run is the third one of the bridge. -/
theorem bridge_eq (id : String) :
    bridge id = bridgeOpening.map String.toList
      ++ (identifierLead ++ Json.quote id.toList ++ [';']) :: bridgeRest.map String.toList :=
  rfl

/-- The identifier of the run is confined to the third line if only the bridge depends on it. -/
theorem confined_identifier {build : String → Script} {opening code : List Char}
    {closing : List (List Char)} (hframed : ∀ id, (build id).Framed)
    (h : ∀ id, build id = ⟨bridge id ++ [opening], code, closing⟩) :
    Confined build 2 identifierLead [';'] := by
  have hplace : (bridgeOpening.map String.toList).length = 2 := rfl
  refine hplace ▸ confined_of_lines _
    (bridgeRest.map String.toList ++ ([opening] ++ (Text.lines code ++ closing))) fun id => ?_
  have hlines : Text.lines (build id).text = bridge id ++ [opening] ++ (Text.lines code ++ closing) := by
    have hframe := (hframed id).lines_text
    rwa [h] at hframe ⊢
  rw [hlines, bridge_eq, List.append_assoc, List.append_assoc, List.cons_append]

/-- The container is confined to the line after the code. -/
theorem confined_container (code : List Char) (id : String) {namespaceName : String}
    (h : Text.isName namespaceName.toList = true) :
    Confined (fun containerId => forInstance code id namespaceName (.text containerId))
      (linesAhead + numberOfLines code) containerLead containerTail := by
  have hplace : linesAhead + numberOfLines code
      = (bridge id ++ [sketchOpening namespaceName] ++ Text.lines code).length := by
    rw [List.length_append]
    rfl
  rw [hplace]
  refine confined_of_lines _ (sketchClosing .null).tail fun containerId => ?_
  rw [(framed_forInstance code id containerId h).lines_text, forInstance, List.append_assoc]
  rfl

/-! ### Scripts -/

/-- **Identifiers do not get out of their literals.**  Whatever the code is, the identifier of the run
stands in the third line of its script as a literal of it, and so it does in the script of a sketch, for
every namespace that is taken and every container.  There the container stands in the line after the code
in the same way.  The scripts for two identifiers of a run differ in the third line only, and those for two
containers in the line after the code only. -/
theorem identifiers_confined (code : List Char) :
    Confined (plain code) 2 identifierLead [';'] ∧
      ∀ namespaceName, Text.isName namespaceName.toList = true →
        ∃ build : String → String → Script,
          (∀ id containerId, sketch? code id namespaceName containerId = .ok (build id containerId)) ∧
          (∀ containerId, Confined (build · containerId) 2 identifierLead [';']) ∧
          ∀ id, Confined (build id) (linesAhead + numberOfLines code) containerLead containerTail := by
  refine ⟨confined_identifier (framed_plain code) fun id => rfl, fun namespaceName hname => ?_⟩
  refine ⟨fun id containerId => forInstance code id namespaceName (.text containerId), ?_, ?_, ?_⟩
  · intro id containerId
    rw [sketch?, if_pos hname]
  · intro containerId
    exact confined_identifier (fun id => framed_forInstance code id containerId hname) fun id => rfl
  · intro id
    exact confined_container code id hname

/-- An identifier with quotes, a mark of a template, a backslash, a line feed and a character of two
units. -/
def awkwardId : String :=
  "a\x22; \x7bsketch_id\x7d\\\n😀"

/-- The awkward identifier is confined, whichever of the two it is. -/
theorem identifiers_confined_awkward :
    Text.isName "_p".toList = true ∧
      Json.quote awkwardId.toList = "\x22a\\\x22; \x7bsketch_id\x7d\\\\\\n\\ud83d\\ude00\x22".toList ∧
      ∃ build : String → String → Script,
        (∀ id containerId, sketch? twoLines id "_p" containerId = .ok (build id containerId)) ∧
        Embeds (build awkwardId "box").text 2 identifierLead [';'] awkwardId ∧
        DifferAt (build awkwardId "box").text (build "box" "box").text 2 ∧
        Embeds (build "box" awkwardId).text 66 containerLead containerTail awkwardId := by
  have hname : Text.isName "_p".toList = true := by decide +kernel
  have hlines : numberOfLines twoLines = 2 := by decide +kernel
  obtain ⟨build, hbuild, hid, hcontainer⟩ := (identifiers_confined twoLines).2 "_p" hname
  refine ⟨hname, by decide +kernel, build, hbuild, (hid "box").embeds awkwardId, ?_, ?_⟩
  · exact (hid "box").differ awkwardId "box" (by decide +kernel)
  · have hembeds := (hcontainer "box").embeds awkwardId
    rwa [hlines] at hembeds

end Injection

end SketchHost
