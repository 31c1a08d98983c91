import ExtensionKit.Artifact.Activity
import ExtensionKit.Artifact.Function
import ExtensionKit.Artifact.Trigger
import ExtensionKit.Proofs.Artifact.Reference
import ExtensionKit.Proofs.Declaration.Descriptor
import ExtensionKit.Proofs.Record.Schema
import ExtensionKit.Proofs.Typing.Fits

/-!
# What a fingerprint covers

The fingerprint of an artifact is the digest of its canonical text. The text determines the descriptor
but for the fingerprint (`Descriptor.canonicalText_inj`), and that determines the whole declaration: the
kind is one of three distinct words, the extension or category is what is left of the key without the
kind and the name, and the sections hold the schemas field by field.
-/

namespace ExtensionKit

/-- The declaration of an artifact, for an extension if it is no function. -/
inductive DeclaredArtifact where
  | activity (extension : String) (definition : ActivityDefinition)
  | trigger (extension : String) (definition : TriggerDefinition)
  | function (definition : FunctionDefinition)
deriving DecidableEq

namespace DeclaredArtifact

/-- The descriptor of the artifact. There is none if the signature of a function does not compile. -/
def descriptor : DeclaredArtifact → Except SchemaError Descriptor
  | .activity extension d => .ok (ActivityType.ofDefinition extension d).metadata.descriptor
  | .trigger extension d => .ok (TriggerType.ofDefinition extension d).metadata.descriptor
  | .function d => (HostFunction.compile d).map HostFunction.descriptor

/-- What the descriptor holds apart from the fingerprint. -/
def content : DeclaredArtifact → Descriptor
  | .activity extension d =>
    { Descriptor.bare d.name "flowgen:activity" (.activity extension d.name) with
      settings := Descriptor.ofSchema d.settings
      input := Descriptor.ofSchema d.input
      output := Descriptor.ofSchema d.output }
  | .trigger extension d =>
    { Descriptor.bare d.name "flowgen:trigger" (.trigger extension d.name) with
      settings := Descriptor.ofSchema d.settings
      handler := Descriptor.ofSchema d.handler
      output := Descriptor.ofSchema d.output }
  | .function d =>
    { Descriptor.bare d.name "flowgen:function" (.function d.category d.name) with
      arguments := d.arguments.map .ofField
      result := some d.result }

end DeclaredArtifact

namespace Descriptor

/-- The descriptions of fields determine the fields, one by one and in order. -/
theorem map_ofField_inj {fs gs : List Field}
    (h : fs.map FieldDescriptor.ofField = gs.map FieldDescriptor.ofField) : fs = gs :=
  (List.map_inj_right fun _ _ => FieldDescriptor.ofField_inj).mp h

theorem ofSchema_inj {s t : Schema} (h : ofSchema s = ofSchema t) : s = t :=
  Schema.fields_inj (map_ofField_inj h)

end Descriptor

namespace DeclaredArtifact

/-- **A descriptor is its content** but for the fingerprint. -/
theorem content_of_descriptor {a : DeclaredArtifact} {d : Descriptor} (h : a.descriptor = .ok d) :
    { d with fingerprint := "" } = a.content := by
  cases a with
  | activity extension definition =>
    obtain rfl := Except.ok.inj h
    rfl
  | trigger extension definition =>
    obtain rfl := Except.ok.inj h
    rfl
  | function definition =>
    rw [descriptor, HostFunction.compile, Signature.compile] at h
    cases hschema : Schema.ofFields definition.arguments with
    | error e =>
      rw [hschema] at h
      cases h
    | ok parameters =>
      rw [hschema] at h
      obtain rfl := Except.ok.inj h
      rw [content, ← Schema.fields_of_ofFields hschema]
      rfl

/-- **The content determines the declaration.** -/
theorem content_inj {a b : DeclaredArtifact} (h : a.content = b.content) : a = b := by
  have hkind := congrArg Descriptor.kind h
  have hreference := congrArg Descriptor.reference h
  have kinds : "flowgen:activity" ≠ "flowgen:trigger" ∧ "flowgen:activity" ≠ "flowgen:function" ∧
      "flowgen:trigger" ≠ "flowgen:function" := by decide
  cases a with
  | activity extension d =>
    cases b with
    | activity extension' e =>
      obtain ⟨name, settings, input, output⟩ := d
      obtain ⟨hname, -, -, hsettings, -, hinput, houtput, -, -, -⟩ := Descriptor.mk.inj h
      cases e
      cases hname
      cases Descriptor.ofSchema_inj hsettings
      cases Descriptor.ofSchema_inj hinput
      cases Descriptor.ofSchema_inj houtput
      rw [Reference.scope_inj .activity hreference]
    | trigger extension' e => exact absurd hkind kinds.1
    | function e => exact absurd hkind kinds.2.1
  | trigger extension d =>
    cases b with
    | activity extension' e => exact absurd hkind.symm kinds.1
    | trigger extension' e =>
      obtain ⟨name, settings, handler, output⟩ := d
      obtain ⟨hname, -, -, hsettings, hhandler, -, houtput, -, -, -⟩ := Descriptor.mk.inj h
      cases e
      cases hname
      cases Descriptor.ofSchema_inj hsettings
      cases Descriptor.ofSchema_inj hhandler
      cases Descriptor.ofSchema_inj houtput
      rw [Reference.scope_inj .trigger hreference]
    | function e => exact absurd hkind kinds.2.2
  | function d =>
    cases b with
    | activity extension' e => exact absurd hkind.symm kinds.2.1
    | trigger extension' e => exact absurd hkind.symm kinds.2.2
    | function e =>
      obtain ⟨name, category, arguments, result⟩ := d
      obtain ⟨hname, -, -, -, -, -, -, harguments, hresult, -⟩ := Descriptor.mk.inj h
      cases e
      cases hname
      cases Descriptor.map_ofField_inj harguments
      cases hresult
      cases Reference.scope_inj .function hreference
      rfl

/-- The descriptor of an artifact has its own fingerprint. -/
theorem fingerprint_of_descriptor {a : DeclaredArtifact} {d : Descriptor} (h : a.descriptor = .ok d) :
    d.fingerprint = d.computeFingerprint := by
  cases a with
  | activity extension definition =>
    obtain rfl := Except.ok.inj h
    rfl
  | trigger extension definition =>
    obtain rfl := Except.ok.inj h
    rfl
  | function definition =>
    obtain ⟨f, hf, rfl⟩ := map_eq_ok h
    rw [HostFunction.compile] at hf
    split at hf
    · cases hf
    · obtain rfl := Except.ok.inj hf
      rfl

/-- **The fingerprint covers the whole declaration.** Descriptors have one canonical text exactly if they
agree in everything but the fingerprint, and declared artifacts exactly if they are the same: of one kind,
with one extension or category and one name, and with the same fields in the same order in every schema,
or the same arguments and result. The fingerprint that is computed for a descriptor is the digest of this
text, and declared artifacts have the one that is computed for them. -/
theorem canonicalText_eq_iff :
    (∀ d e : Descriptor, d.canonicalText = e.canonicalText ↔
      { d with fingerprint := "" } = { e with fingerprint := "" }) ∧
    (∀ (a b : DeclaredArtifact) (d e : Descriptor), a.descriptor = .ok d → b.descriptor = .ok e →
      (d.canonicalText = e.canonicalText ↔ a = b)) ∧
    (∀ d : Descriptor, d.computeFingerprint = Digest.sha256 d.canonicalText.toUTF8.toList) ∧
    ∀ (a : DeclaredArtifact) (d : Descriptor), a.descriptor = .ok d →
      d.fingerprint = d.computeFingerprint := by
  have hdescriptors : ∀ d e : Descriptor, d.canonicalText = e.canonicalText ↔
      { d with fingerprint := "" } = { e with fingerprint := "" } :=
    fun d e => ⟨Descriptor.canonicalText_inj, congrArg fun c : Descriptor => c.toJson.text⟩
  refine ⟨hdescriptors, fun a b d e ha hb => ?_, fun _ => rfl, fun _ _ => fingerprint_of_descriptor⟩
  rw [hdescriptors, content_of_descriptor ha, content_of_descriptor hb]
  exact ⟨content_inj, congrArg content⟩

/-- The canonical text tells a category and a name from others with the same key. -/
theorem canonicalText_sameKey :
    ∃ d e, (function ⟨"c", "a.b", [⟨"x", .number⟩], .int⟩).descriptor = .ok d ∧
      (function ⟨"b.c", "a", [⟨"x", .number⟩], .int⟩).descriptor = .ok e ∧
      d.reference = e.reference ∧ d.canonicalText ≠ e.canonicalText := by
  refine ⟨_, _, rfl, rfl, rfl, ?_⟩
  rw [ne_eq, canonicalText_eq_iff.2.1 (function ⟨"c", "a.b", [⟨"x", .number⟩], .int⟩)
    (function ⟨"b.c", "a", [⟨"x", .number⟩], .int⟩) _ _ rfl rfl]
  decide

end DeclaredArtifact

end ExtensionKit
