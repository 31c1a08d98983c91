import ExtensionKit.Proofs.Artifact.Reference
import ExtensionKit.Proofs.Registry.Runs

/-!
# What a conflict says

A registration is refused if its key is taken, whoever took it. That is a repeated registration of one
artifact if the key can only be read as its name, and also if the extensions and categories of all
artifacts are plain. Otherwise it may be another artifact with the same key, even one of another kind
(`Registry.conflict_shared`).
-/

namespace ExtensionKit

/-- The name that an artifact is made for. Activities and triggers are made of a definition for an
extension, and may have any resolver. -/
inductive Artifact.MadeFor : Artifact → ArtifactName → Prop
  | activity (extension : String) (d : ActivityDefinition) (resolver : Resolver) :
    MadeFor (.activity { ActivityType.ofDefinition extension d with resolver })
      ⟨.activity, extension, d.name⟩
  | trigger (extension : String) (d : TriggerDefinition) (resolver : Resolver) :
    MadeFor (.trigger { TriggerType.ofDefinition extension d with resolver })
      ⟨.trigger, extension, d.name⟩
  | function (f : HostFunction) : MadeFor (.function f) ⟨.function, f.category, f.name⟩

theorem Artifact.MadeFor.reference_eq {a : Artifact} {n : ArtifactName} (h : a.MadeFor n) :
    a.reference = n.key := by
  cases h <;> rfl

namespace Registry

variable {calls : List Artifact} {next : Artifact} {n : ArtifactName}

/-- A key is taken by an artifact that was registered under it. -/
theorem isSome_get?_run {reference : Reference} :
    ((empty.run calls).get? reference).isSome ↔ ∃ a ∈ calls, a.reference = reference := by
  rw [get?_run, get?_empty, Option.none_or, Artifact.isSome_first?, List.mem_map]

/-- **If only the name itself can have taken its key**, a refusal is a repeated registration. -/
theorem register_of_sole (made : next.MadeFor n)
    (sole : ∀ a ∈ calls, ∃ m, a.MadeFor m ∧ (m.key = n.key → m = n)) :
    (((empty.run calls).register next).value.2 = .error (.conflict n.key.text) ↔
      ∃ a ∈ calls, a.MadeFor n) ∧
    (((empty.run calls).register next).value.2 = .ok n.key ↔ ¬ ∃ a ∈ calls, a.MadeFor n) := by
  have hreference := made.reference_eq
  have htaken : ((empty.run calls).get? next.reference).isSome ↔ ∃ a ∈ calls, a.MadeFor n := by
    rw [isSome_get?_run, hreference]
    refine exists_congr fun a => and_congr_right fun ha => ⟨fun h => ?_, Artifact.MadeFor.reference_eq⟩
    obtain ⟨m, hm, hsole⟩ := sole a ha
    obtain rfl := hsole (hm.reference_eq.symm.trans h)
    exact hm
  rw [← htaken]
  cases hget : (empty.run calls).get? next.reference with
  | none =>
    rw [register_of_free hget, hreference]
    simp
  | some a =>
    rw [register_of_taken (by rw [hget]; rfl), hreference]
    simp

/-- **What keys tell about artifacts.**

* Artifacts with plain extensions and categories have one key only if they are the same: of one kind,
  with one extension or category, and of one name, whatever characters the name has.
* Artifacts of one kind with one key agree in the extension or category exactly if they agree in the name.
* A key belongs to the names that it can be read as, and to one alone exactly if it has one reading.
* After any registrations in a new registry, the next one is refused exactly if the same artifact has been
  registered before, provided that its key has one reading, or that its own extension or category and
  those of all artifacts before it are plain. -/
theorem conflict_identifies :
    (∀ m n : ArtifactName, m.PlainScope → n.PlainScope → (m.key = n.key ↔ m = n)) ∧
    (∀ m n : ArtifactName, m.kind = n.kind → m.key = n.key → (m.scope = n.scope ↔ m.name = n.name)) ∧
    (∀ n : ArtifactName, (∀ m, m ∈ n.key.readings ↔ m.key = n.key) ∧
      (n.key.readings = [n] ↔ ∀ m : ArtifactName, m.key = n.key → m = n)) ∧
    ∀ (calls : List Artifact) (next : Artifact) (n : ArtifactName), next.MadeFor n →
      (∀ a ∈ calls, ∃ m, a.MadeFor m ∧ (n.key.readings = [n] ∨ m.PlainScope ∧ n.PlainScope)) →
      (((empty.run calls).register next).value.2 = .error (.conflict n.key.text) ↔
        ∃ a ∈ calls, a.MadeFor n) ∧
      (((empty.run calls).register next).value.2 = .ok n.key ↔ ¬ ∃ a ∈ calls, a.MadeFor n) := by
  refine ⟨fun m n hm hn => ⟨ArtifactName.key_inj hm hn, congrArg _⟩,
    fun m n => ArtifactName.scope_eq_iff,
    fun n => ⟨fun m => Reference.mem_readings, Reference.readings_eq_singleton_iff⟩,
    fun calls next n made hcalls => register_of_sole made fun a ha => ?_⟩
  obtain ⟨m, hm, hsingle | ⟨hplain, hplain'⟩⟩ := hcalls a ha
  · exact ⟨m, hm, Reference.readings_eq_singleton_iff.mp hsingle m⟩
  · exact ⟨m, hm, ArtifactName.key_inj hplain hplain'⟩

/-- A function with a dot in its name is refused the second time, and its key is no other function's. -/
theorem conflict_identifies_dot :
    (ArtifactName.key ⟨.function, "text", "a.b"⟩ ≠ ArtifactName.key ⟨.function, "text", "b"⟩) ∧
    ("c" = "c.a" ↔ "a.b" = "b") ∧
    ∃ f : HostFunction, f.category = "text" ∧ f.name = "a.b" ∧
      ((empty.run [.function f]).register (.function f)).value.2 =
        .error (.conflict "text.a.b") := by
  let f : HostFunction := ⟨"a.b", "text", ⟨.empty, .int⟩, default, none⟩
  let n : ArtifactName := ⟨.function, "text", "a.b"⟩
  have hplain : n.PlainScope := by decide
  have made : (Artifact.function f).MadeFor n := .function f
  refine ⟨fun h => ?_, ?_, f, rfl, rfl, ?_⟩
  · have hother : ArtifactName.PlainScope ⟨.function, "text", "b"⟩ := by decide
    exact absurd ((conflict_identifies.1 n ⟨.function, "text", "b"⟩ hplain hother).mp h) (by decide)
  · exact conflict_identifies.2.1 ⟨.function, "c", "a.b"⟩ ⟨.function, "c.a", "b"⟩ rfl rfl
  · refine (conflict_identifies.2.2.2 [.function f] (.function f) n made ?_).1.mpr
      ⟨_, List.mem_singleton_self _, made⟩
    exact List.forall_mem_singleton.mpr ⟨n, made, .inr ⟨hplain, hplain⟩⟩

/-- Different artifacts can have one key: two functions, two activities, or an activity and a function.
Then the second is refused although it was never registered. -/
theorem conflict_shared :
    Reference.function "c" "a.b" = Reference.function "c.a" "b" ∧
    Reference.activity "x" "y/activity/z" = Reference.activity "x/activity/y" "z" ∧
    Reference.activity "e" "a.b" = Reference.function "e/activity/a" "b" ∧
    ∃ f g : HostFunction, (f.category, f.name) = ("c", "a.b") ∧ (g.category, g.name) = ("c.a", "b") ∧
      ((empty.run [.function f]).register (.function g)).value.2 = .error (.conflict "c.a.b") := by
  let f : HostFunction := ⟨"a.b", "c", ⟨.empty, .int⟩, default, none⟩
  let g : HostFunction := ⟨"b", "c.a", ⟨.empty, .int⟩, default, none⟩
  refine ⟨rfl, rfl, rfl, f, g, rfl, rfl, ?_⟩
  have htaken : ((empty.run [.function f]).get? (Artifact.function g).reference).isSome :=
    isSome_get?_run.mpr ⟨_, List.mem_singleton_self _, rfl⟩
  rw [register_of_taken htaken]
  rfl

end Registry

end ExtensionKit
