import ExtensionKit.Generated.FunctionSource
import ExtensionKit.Proofs.Generated.Identifiers
import ExtensionKit.Proofs.Record.Schema

/-!
# The variables of generated functions

A list of arguments is accepted if the exported identifiers of their names are distinct; the variables
of the generated function are other identifiers of the same names. Distinct exported identifiers do
keep most names apart that would share a variable. What slips through is told by
`Generated.argumentVariables_nodup_iff`: a name that gives way to another one, such as `params` to
`params_`, and letters outside ASCII at the start.
-/

namespace ExtensionKit

/-- The stem of the name of a field. -/
def Field.stem (f : Field) : List Char := Identifier.stem f.name.toList

/-- A field whose name is empty or starts in ASCII. -/
def Field.StartsInAscii (f : Field) : Prop := Identifier.StartsInAscii f.name.toList

/-- The exported identifier of a field is made from its stem if the name starts in ASCII. -/
theorem Field.ident_eq {f : Field} (ascii : f.StartsInAscii) :
    f.ident = String.ofList (Identifier.guardKeyword (Identifier.capitalized f.stem)) :=
  congrArg String.ofList (Identifier.exportedBy_eq Identifier.usualOnAscii_capital ascii)

namespace Generated

open Identifier

/-- The stems that give way in an accepted list of arguments. The other words that give way in lower
case do so with a capital at the start too, and then the exported identifiers are the same. -/
theorem ident_eq_of_givesWayTo {f g : Field} (hf : f.StartsInAscii) (hg : g.StartsInAscii)
    (h : GivesWayTo f.stem g.stem) :
    f.stem ∈ ["params", "crate", "super"].map String.toList ∨ f.ident = g.ident := by
  have hall : ∀ word ∈ yielding, word ∈ ["params", "crate", "super"].map String.toList ∨
      guardKeyword (capitalized word) = guardKeyword (capitalized (word ++ ['_'])) := by decide
  rw [Field.ident_eq hf, Field.ident_eq hg, h.2]
  exact (hall f.stem h.1).imp_right (congrArg String.ofList)

/-- **When the variables of a function are distinct.** The arguments of an accepted list have distinct
variables exactly if no two names have stems that make the same variable, which is to say that they
have the same stem or one gives way to the other. Among names that start in ASCII this happens in one
way only: one stem is `params`, `crate` or `super`, and the other is the same with an underscore. -/
theorem argumentVariables_nodup_iff {arguments : List Field} {result : FieldType} {s : Signature}
    (accepted : Signature.compile arguments result = .ok s) :
    ((argumentVariables s).Nodup ↔
      arguments.Pairwise fun f g => ¬SameVariable f.stem g.stem) ∧
    arguments.Pairwise fun f g => f.StartsInAscii → g.StartsInAscii → SameVariable f.stem g.stem →
      ∃ word ∈ ["params", "crate", "super"].map String.toList,
        (f.stem = word ∧ g.stem = word ++ ['_']) ∨ (g.stem = word ∧ f.stem = word ++ ['_']) := by
  have hfields : s.parameters.fields = arguments := Signature.fields_of_compile accepted
  constructor
  · rw [argumentVariables, hfields, List.Nodup, List.pairwise_map]
    simp only [ne_eq, argument_eq_iff, Field.stem]
  · have hdistinct : arguments.Pairwise fun f g => f.ident ≠ g.ident := by
      rw [← hfields]
      exact List.pairwise_map.mp s.parameters.distinct
    refine hdistinct.imp fun {f g} hne hf hg hsame => ?_
    rcases hsame with heq | hway | hway
    · -- names with one stem have one exported identifier
      rw [Field.ident_eq hf, Field.ident_eq hg, heq] at hne
      exact absurd rfl hne
    · have hword := (ident_eq_of_givesWayTo hf hg hway).resolve_right hne
      exact ⟨f.stem, hword, .inl ⟨rfl, hway.2⟩⟩
    · have hword := (ident_eq_of_givesWayTo hg hf hway).resolve_right hne.symm
      exact ⟨g.stem, hword, .inr ⟨rfl, hway.2⟩⟩

/-- Words that are changed in other ways than by an underscore do not clash. -/
theorem argumentVariables_nodup_changed :
    ∃ s, Signature.compile [⟨"type", .string⟩, ⟨"params", .int⟩, ⟨"max-len", .int⟩] .string = .ok s ∧
      (argumentVariables s).Nodup := by
  let arguments : List Field := [⟨"type", .string⟩, ⟨"params", .int⟩, ⟨"max-len", .int⟩]
  have accepted : Signature.compile arguments .string = .ok ⟨⟨arguments, by decide⟩, .string⟩ := rfl
  exact ⟨_, accepted, (argumentVariables_nodup_iff accepted).1.mpr (by decide)⟩

/-- Accepted arguments can share a variable: one whose name gives way to another, and names that
start with letters outside ASCII of which only one has a capital in ASCII. -/
theorem argumentVariables_shared :
    (∃ s, Signature.compile [⟨"params", .int⟩, ⟨"params_", .int⟩] .int = .ok s ∧
      argumentVariables s = ["params_", "params_"] ∧
      useLines (argumentVariables s) = ["        let _ = (params_, params_);"]) ∧
    ∃ s, Signature.compile [⟨"ßa", .int⟩, ⟨"éa", .int⟩] .int = .ok s ∧
      argumentVariables s = ["_a", "_a"] := by
  exact ⟨⟨_, rfl, by decide, by decide⟩, ⟨_, rfl, by decide⟩⟩

end Generated

end ExtensionKit
