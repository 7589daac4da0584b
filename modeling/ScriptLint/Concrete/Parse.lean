import ScriptLint.Concrete.Convert
import ScriptLint.Language

/-!
# Parsed documents

A document is accepted if its language has a parser and the tree of that parser has no error;
then its concrete tree is converted.
-/

namespace ScriptLint.Concrete

/-- Refuses a language without a parser. -/
def checkLanguage (language : Language) : Except Fault Unit :=
  if language.hasParser then .ok ()
  else
    .error (.unsupported
      (("No parser available for language '" : Text) ++ language.tag ++ ("'" : Text)))

/-- The line of the first error of a document. -/
def errorLine? (source : Source) (root : Tree) : Option Nat :=
  root.firstError?.map fun t => source.lineOf t.start

/-- The fault of a document with errors. -/
def parseFault (language : Language) (line : Option Nat) : Fault :=
  let place : Text :=
    match line with
    | some n => (" near line " : Text) ++ Text.ofNat n
    | none => []
  .unparsed (("Failed to parse " : Text) ++ language.tag ++ (" source" : Text) ++ place) line

/-- The syntax tree of a document, given the tree of the parser; nothing if the root of that tree
has no content. -/
def parse (text : Text) (language : Language) (root : Tree) : Except Fault (Option Ast.Node) := do
  checkLanguage language
  let source := Source.ofText text
  if root.hasError then throw (parseFault language (errorLine? source root))
  convert source root

end ScriptLint.Concrete
