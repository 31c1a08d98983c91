import ExtensionKit.Manifest.Registration
import ExtensionKit.Proofs.List.First
import ExtensionKit.Proofs.Registry.Runs
import Mathlib.Data.List.Forall2
import Mathlib.Data.List.Induction

/-!
# Registering a manifest

The artifacts of a manifest are registered one after another, up to the first whose key is taken
(`Registry.FirstTaken`), and whatever comes before that one is gained (`Registry.Gains`). Functions are
compiled all at once when the activities and triggers are registered, so the first that does not compile
(`HostFunction.FirstRefused`) keeps out all of them. `Manifest.register_stepwise` says what a
registration does in each of these cases, and that it gives the keys that the descriptors tell.
-/

namespace ExtensionKit

/-! ## Compiling functions -/

namespace HostFunction

/-- The functions are compiled from the declarations, one from each. -/
def AreCompiled : List FunctionDefinition → List HostFunction → Prop :=
  List.Forall₂ fun d f => compile d = .ok f

/-- The error of the first declaration whose arguments do not compile. -/
def FirstRefused (ds : List FunctionDefinition) (e : SchemaError) : Prop :=
  ∃ before d after, ds = before ++ d :: after ∧
    (∀ b ∈ before, ∃ s, Signature.compile b.arguments b.result = .ok s) ∧
    Signature.compile d.arguments d.result = .error e

/-- A function whose signature compiles has no body yet. -/
theorem compile_of_ok {d : FunctionDefinition} {s : Signature}
    (h : Signature.compile d.arguments d.result = .ok s) :
    compile d =
      .ok ⟨d.name, d.category, s, .ofFunction (.function d.category d.name) d s, none⟩ := by
  rw [compile, h]

theorem compile_of_error {d : FunctionDefinition} {e : SchemaError}
    (h : Signature.compile d.arguments d.result = .error e) : compile d = .error e := by
  rw [compile, h]

/-- A compiled function has the names, the signature and the descriptor of its declaration. -/
theorem compile_eq_ok_iff {d : FunctionDefinition} {f : HostFunction} :
    compile d = .ok f ↔ ∃ s, Signature.compile d.arguments d.result = .ok s ∧
      f = ⟨d.name, d.category, s, .ofFunction (.function d.category d.name) d s, none⟩ := by
  constructor
  · intro h
    rcases hs : Signature.compile d.arguments d.result with e | s
    · rw [compile_of_error hs] at h
      cases h
    · rw [compile_of_ok hs] at h
      exact ⟨s, rfl, (Except.ok.inj h).symm⟩
  · rintro ⟨s, hs, rfl⟩
    exact compile_of_ok hs

theorem exists_compile_eq_ok_iff {d : FunctionDefinition} :
    (∃ f, compile d = .ok f) ↔ ∃ s, Signature.compile d.arguments d.result = .ok s := by
  constructor
  · rintro ⟨f, h⟩
    obtain ⟨s, hs, -⟩ := compile_eq_ok_iff.mp h
    exact ⟨s, hs⟩
  · rintro ⟨s, hs⟩
    exact ⟨_, compile_of_ok hs⟩

/-- The error of a function is that of its signature. -/
theorem compile_eq_error_iff {d : FunctionDefinition} {e : SchemaError} :
    compile d = .error e ↔ Signature.compile d.arguments d.result = .error e := by
  rcases h : Signature.compile d.arguments d.result with e' | s
  · rw [compile_of_error h, Except.error.injEq, Except.error.injEq]
  · rw [compile_of_ok h]
    exact iff_of_false nofun nofun

/-- The descriptor of a compiled function tells its key. -/
theorem descriptor_reference {d : FunctionDefinition} {f : HostFunction} (h : compile d = .ok f) :
    f.descriptor.reference = f.reference.text := by
  obtain ⟨s, -, rfl⟩ := compile_eq_ok_iff.mp h
  rfl

/-- The descriptors of functions tell the keys of the functions. -/
theorem AreCompiled.map_reference {ds : List FunctionDefinition} {fs : List HostFunction}
    (h : AreCompiled ds fs) :
    (fs.map fun f => f.descriptor.reference) = fs.map fun f => f.reference.text := by
  induction h with
  | nil => rfl
  | cons hd _ ih => rw [List.map_cons, List.map_cons, descriptor_reference hd, ih]

/-- **All functions compile** exactly if each of them does. -/
theorem compileAll_eq_ok_iff {ds : List FunctionDefinition} {fs : List HostFunction} :
    compileAll ds = .ok fs ↔ AreCompiled ds fs := by
  induction ds generalizing fs with
  | nil =>
    rw [compileAll, AreCompiled, List.forall₂_nil_left_iff, Except.ok.injEq, eq_comm]
  | cons d rest ih =>
    rw [compileAll, AreCompiled, List.forall₂_cons_left_iff]
    constructor
    · intro h
      split at h
      · cases h
      · next f hf =>
        split at h
        · cases h
        · next gs hgs => exact ⟨f, gs, hf, ih.mp hgs, (Except.ok.inj h).symm⟩
    · rintro ⟨f, gs, hf, hgs, rfl⟩
      simp only [hf, ih.mpr hgs]

/-- The first function that does not compile is the error of all. -/
theorem compileAll_of_error {before after : List FunctionDefinition} {d : FunctionDefinition}
    {e : SchemaError} (h : ∀ b ∈ before, ∃ f, compile b = .ok f) (he : compile d = .error e) :
    compileAll (before ++ d :: after) = .error e := by
  induction before with
  | nil => rw [List.nil_append, compileAll, he]
  | cons b rest ih =>
    obtain ⟨f, hf⟩ := h b (List.mem_cons_self ..)
    rw [List.cons_append, compileAll, hf]
    simp only [ih fun c hc => h c (List.mem_cons_of_mem _ hc)]

theorem exists_areCompiled {ds : List FunctionDefinition} (h : ∀ d ∈ ds, ∃ f, compile d = .ok f) :
    ∃ fs, AreCompiled ds fs := by
  induction ds with
  | nil => exact ⟨[], .nil⟩
  | cons d rest ih =>
    obtain ⟨f, hf⟩ := h d (List.mem_cons_self ..)
    obtain ⟨fs, hfs⟩ := ih fun b hb => h b (List.mem_cons_of_mem _ hb)
    exact ⟨f :: fs, .cons hf hfs⟩

/-- **Compiling declarations fails exactly if one of them does not compile**, with the error of the
first that does not. -/
theorem compileAll_eq_error_iff {ds : List FunctionDefinition} {e : SchemaError} :
    compileAll ds = .error e ↔ FirstRefused ds e := by
  simp only [FirstRefused, ← exists_compile_eq_ok_iff, ← compile_eq_error_iff]
  constructor
  · intro h
    rcases all_ok_or_first_error compile ds with hall | ⟨before, d, after, e', rfl, hbefore, hd⟩
    · obtain ⟨fs, hfs⟩ := exists_areCompiled hall
      rw [compileAll_eq_ok_iff.mpr hfs] at h
      cases h
    · rw [compileAll_of_error hbefore hd] at h
      obtain rfl := Except.error.inj h
      exact ⟨before, d, after, rfl, hbefore, hd⟩
  · rintro ⟨before, d, after, rfl, hbefore, hd⟩
    exact compileAll_of_error hbefore hd

/-- There is a first declaration that does not compile if there is any. -/
theorem exists_firstRefused_iff {ds : List FunctionDefinition} :
    (∃ e, FirstRefused ds e) ↔
      ∃ d ∈ ds, ∃ e, Signature.compile d.arguments d.result = .error e := by
  constructor
  · rintro ⟨e, before, d, after, rfl, -, hd⟩
    exact ⟨d, List.mem_append_right _ (List.mem_cons_self ..), e, hd⟩
  · rintro ⟨d, hd, e, he⟩
    rcases all_ok_or_first_error (fun d => Signature.compile d.arguments d.result) ds with
      hall | ⟨before, b, after, e, split, hbefore, hb⟩
    · obtain ⟨s, hs⟩ := hall d hd
      rw [he] at hs
      cases hs
    · exact ⟨e, before, b, after, split, hbefore, hb⟩

/-- Either all functions compile or one is the first that does not. -/
theorem areCompiled_or_firstRefused (ds : List FunctionDefinition) :
    (∃ fs, AreCompiled ds fs) ∨ ∃ e, FirstRefused ds e := by
  rcases h : compileAll ds with e | fs
  · exact .inr ⟨e, compileAll_eq_error_iff.mp h⟩
  · exact .inl ⟨fs, compileAll_eq_ok_iff.mp h⟩

end HostFunction

/-! ## Registering a list of artifacts -/

namespace Registry

/-- The first of some artifacts that cannot be registered, with those before it. -/
structure FirstTaken (r : Registry) (as before : List Artifact) (a : Artifact) : Prop where
  /-- it comes right after them -/
  split : ∃ after, as = before ++ a :: after
  /-- they can all be registered -/
  free : r.AllFree before
  /-- its key was taken already, or one of them takes it -/
  taken : (r.get? a.reference).isSome ∨ a.reference ∈ before.map Artifact.reference

/-- What a registry has gained: some artifacts, each under its own key, and nothing else. What was there
is still there. -/
structure Gains (r : Registry) (gained : List Artifact) (r' : Registry) : Prop where
  /-- the entries -/
  entries : r'.entries.Perm (gained.map Artifact.entry ++ r.entries)
  /-- what is found under a key -/
  found : ∀ reference, r'.get? reference = (r.get? reference).or (Artifact.first? gained reference)

variable {r r' : Registry} {a : Artifact} {as bs before : List Artifact}

theorem AllFree.gains (h : r.AllFree as) : r.Gains as (r.run as) := ⟨h.entries_run, r.get?_run as⟩

/-- What was gained is found under its key. -/
theorem Gains.found_of_mem (h : r.Gains as r') (free : r.AllFree as) (ha : a ∈ as) :
    r'.get? a.reference = some a := by
  rw [h.found, free.2 a ha, Option.none_or]
  exact find?_key free.1 ha

/-! What was gained is found as what it is. -/

theorem Gains.activity (h : r.Gains as r') (free : r.AllFree as) {t : ActivityType}
    (ht : .activity t ∈ as) : r'.activity t.reference = .ok t :=
  (r'.typed_lookups t.reference).1 t |>.mpr (h.found_of_mem free ht)

theorem Gains.trigger (h : r.Gains as r') (free : r.AllFree as) {t : TriggerType}
    (ht : .trigger t ∈ as) : r'.trigger t.reference = .ok t :=
  (r'.typed_lookups t.reference).2.1 t |>.mpr (h.found_of_mem free ht)

theorem Gains.function (h : r.Gains as r') (free : r.AllFree as) {f : HostFunction}
    (hf : .function f ∈ as) : r'.function f.reference = .ok f :=
  (r'.typed_lookups f.reference).2.2.1 f |>.mpr (h.found_of_mem free hf)

/-- A key is taken if it was taken before or is one of those that were registered. -/
theorem taken_run_iff : ((r.run before).get? a.reference).isSome ↔
    (r.get? a.reference).isSome ∨ a.reference ∈ before.map Artifact.reference := by
  rw [get?_run, Option.isSome_or, Bool.or_eq_true, Artifact.isSome_first?]

/-- Artifacts that cannot all be registered have a first that cannot: the last of them, if all before it
can. -/
theorem exists_firstTaken (h : ¬r.AllFree as) : ∃ before a, r.FirstTaken as before a := by
  induction as using List.reverseRecOn with
  | nil => exact absurd ⟨.nil, nofun⟩ h
  | append_singleton as b ih =>
    by_cases hfree : r.AllFree as
    · rw [allFree_append, allFree_singleton, ← Option.not_isSome_iff_eq_none] at h
      have htaken : ((r.run as).get? b.reference).isSome := by
        by_contra hnone
        exact h ⟨hfree, hnone⟩
      exact ⟨as, b, ⟨[], rfl⟩, hfree, taken_run_iff.mp htaken⟩
    · obtain ⟨before, a, ⟨after, rfl⟩, hbefore, htaken⟩ := ih hfree
      exact ⟨before, a, ⟨after ++ [b], List.append_assoc ..⟩, hbefore, htaken⟩

theorem registerAll_cons_taken (taken : (r.get? a.reference).isSome) :
    (r.registerAll (a :: as)).value = (r, .error (.conflict a.reference.text)) := by
  rw [registerAll, Logged.value_bind, register_of_taken taken]
  rfl

theorem registerAll_cons_free (free : r.get? a.reference = none) :
    (r.registerAll (a :: as)).value =
      (((r.register a).value.1.registerAll as).value.1,
        ((r.register a).value.1.registerAll as).value.2.map (a.reference :: ·)) := by
  rw [registerAll, Logged.value_bind, register_of_free free]
  rfl

/-- If some artifacts can all be registered, so they are, and the registration goes on with the next. -/
theorem registerAll_append (h : r.AllFree as) :
    (r.registerAll (as ++ bs)).value =
      (((r.run as).registerAll bs).value.1,
        ((r.run as).registerAll bs).value.2.map (as.map Artifact.reference ++ ·)) := by
  induction as generalizing r with
  | nil =>
    refine Prod.ext rfl ?_
    change _ = Except.map id _
    exact (LawfulFunctor.id_map _).symm
  | cons a rest ih =>
    obtain ⟨hfree, hrest⟩ := allFree_cons.mp h
    rw [List.cons_append, registerAll_cons_free hfree, ih hrest]
    refine Prod.ext rfl ?_
    change Except.map _ (Except.map _ _) =
      Except.map _ (((r.register a).value.1.run rest).registerAll bs).value.2
    cases (((r.register a).value.1.run rest).registerAll bs).value.2 <;> rfl

/-- **Artifacts with free keys** are registered, all of them. -/
theorem registerAll_of_allFree (h : r.AllFree as) :
    (r.registerAll as).value = (r.run as, .ok (as.map Artifact.reference)) := by
  have happend : (r.registerAll (as ++ [])).value = _ := registerAll_append h
  rw [List.append_nil] at happend
  rw [happend, registerAll]
  exact Prod.ext rfl (congrArg Except.ok (List.append_nil _))

/-- Artifacts are registered up to the first whose key is taken. -/
theorem registerAll_of_firstTaken (h : r.FirstTaken as before a) :
    (r.registerAll as).value = (r.run before, .error (.conflict a.reference.text)) := by
  obtain ⟨⟨after, rfl⟩, hfree, htaken⟩ := h
  rw [registerAll_append hfree, registerAll_cons_taken (taken_run_iff.mpr htaken)]
  rfl

end Registry

/-! ## Registering a manifest -/

namespace Manifest

/-- The activities and triggers as artifacts. -/
def artifactTypes (m : Manifest) : List Artifact :=
  m.activityTypes.map .activity ++ m.triggerTypes.map .trigger

variable {m : Manifest} {r : Registry} {fs : List HostFunction}

/-- A manifest is registered up to the first activity or trigger whose key is taken. -/
theorem register_of_firstTaken {before : List Artifact} {a : Artifact}
    (h : r.FirstTaken m.artifactTypes before a) :
    (m.register r).value = (r.run before, .error (.conflict a.reference.text)) := by
  rw [register, ← artifactTypes, Logged.value_bind, Registry.registerAll_of_firstTaken h]
  rfl

/-- A function that does not compile is found before any function is registered. -/
theorem register_of_firstRefused {e : SchemaError} (free : r.AllFree m.artifactTypes)
    (h : HostFunction.FirstRefused m.functions e) :
    (m.register r).value = (r.run m.artifactTypes, .error (.schema e)) := by
  rw [register, ← artifactTypes, Logged.value_bind, Registry.registerAll_of_allFree free, hostFunctions,
    HostFunction.compileAll_eq_error_iff.mpr h]
  rfl

/-- If the activities and triggers can be registered and the functions compile, then all artifacts are
registered as one list. -/
theorem register_of_areCompiled (free : r.AllFree m.artifactTypes)
    (h : HostFunction.AreCompiled m.functions fs) :
    (m.register r).value = (r.registerAll (m.artifactTypes ++ fs.map .function)).value := by
  rw [register, ← artifactTypes, Logged.value_bind, Registry.registerAll_of_allFree free, hostFunctions,
    HostFunction.compileAll_eq_ok_iff.mpr h, Registry.registerAll_append free]
  rfl

/-- A registration ends in one of four ways. -/
theorem register_cases (m : Manifest) (r : Registry) :
    (∃ before a, r.FirstTaken m.artifactTypes before a ∧
      (m.register r).value = (r.run before, .error (.conflict a.reference.text))) ∨
    r.AllFree m.artifactTypes ∧
      ((∃ e, (m.register r).value = (r.run m.artifactTypes, .error (.schema e))) ∨
      ∃ fs, HostFunction.AreCompiled m.functions fs ∧
        ((∃ before a, r.FirstTaken (m.artifactTypes ++ fs.map Artifact.function) before a ∧
          (m.register r).value = (r.run before, .error (.conflict a.reference.text))) ∨
        r.AllFree (m.artifactTypes ++ fs.map Artifact.function) ∧
          (m.register r).value = (r.run (m.artifactTypes ++ fs.map Artifact.function),
            .ok ((m.artifactTypes ++ fs.map Artifact.function).map Artifact.reference)))) := by
  by_cases free : r.AllFree m.artifactTypes
  · rcases HostFunction.areCompiled_or_firstRefused m.functions with ⟨fs, hfs⟩ | ⟨e, he⟩
    · refine .inr ⟨free, .inr ⟨fs, hfs, ?_⟩⟩
      rw [register_of_areCompiled free hfs]
      by_cases all : r.AllFree (m.artifactTypes ++ fs.map Artifact.function)
      · exact .inr ⟨all, Registry.registerAll_of_allFree all⟩
      · obtain ⟨before, a, hfirst⟩ := Registry.exists_firstTaken all
        exact .inl ⟨before, a, hfirst, Registry.registerAll_of_firstTaken hfirst⟩
    · exact .inr ⟨free, .inl ⟨e, register_of_firstRefused free he⟩⟩
  · obtain ⟨before, a, hfirst⟩ := Registry.exists_firstTaken free
    exact .inl ⟨before, a, hfirst, register_of_firstTaken hfirst⟩

/-- However it ends, a registration is a run of the registry. -/
theorem exists_register_eq_run (m : Manifest) (r : Registry) :
    ∃ as, (m.register r).value.1 = r.run as := by
  rcases m.register_cases r with
    ⟨before, a, -, heq⟩ | ⟨-, ⟨e, heq⟩ | ⟨fs, -, ⟨before, a, -, heq⟩ | ⟨-, heq⟩⟩⟩
  · exact ⟨before, congrArg Prod.fst heq⟩
  · exact ⟨m.artifactTypes, congrArg Prod.fst heq⟩
  · exact ⟨before, congrArg Prod.fst heq⟩
  · exact ⟨_, congrArg Prod.fst heq⟩

/-- What was in the registry before stays there. -/
theorem register_kept {reference : Reference} {a : Artifact} (h : r.get? reference = some a) :
    (m.register r).value.1.get? reference = some a := by
  obtain ⟨as, heq⟩ := m.exists_register_eq_run r
  rw [heq, Registry.get?_run, h]
  rfl

/-- If all keys are given, all artifacts could be registered, and have been. -/
theorem register_eq_ok {refs : List Reference} (h : (m.register r).value.2 = .ok refs) :
    ∃ fs, HostFunction.AreCompiled m.functions fs ∧
      r.AllFree (m.artifactTypes ++ fs.map Artifact.function) ∧
      r.Gains (m.artifactTypes ++ fs.map Artifact.function) (m.register r).value.1 ∧
      refs = (m.artifactTypes ++ fs.map Artifact.function).map Artifact.reference := by
  rcases m.register_cases r with
    ⟨before, b, -, heq⟩ | ⟨-, ⟨e, heq⟩ | ⟨fs, hfs, ⟨before, b, -, heq⟩ | ⟨all, heq⟩⟩⟩
  · rw [heq] at h
    cases h
  · rw [heq] at h
    cases h
  · rw [heq] at h
    cases h
  · rw [heq] at h ⊢
    exact ⟨fs, hfs, all, all.gains, (Except.ok.inj h).symm⟩

/-- The keys of all artifacts: activities, triggers, functions. -/
theorem references_eq (m : Manifest) (fs : List HostFunction) :
    (m.artifactTypes ++ fs.map Artifact.function).map Artifact.reference =
      m.activityTypes.map ActivityType.reference ++ m.triggerTypes.map TriggerType.reference ++
        fs.map HostFunction.reference := by
  simp [artifactTypes, Function.comp_def, Artifact.reference]

/-- There is a key for each declaration. -/
theorem length_references (h : HostFunction.AreCompiled m.functions fs) :
    ((m.artifactTypes ++ fs.map Artifact.function).map Artifact.reference).length =
      m.activities.length + m.triggers.length + m.functions.length := by
  have hlength : m.functions.length = fs.length := List.Forall₂.length_eq h
  simp [artifactTypes, activityTypes, triggerTypes, hlength, Nat.add_assoc]

/-! ## The descriptors -/

/-- The descriptors fail with the first function that does not compile. -/
theorem descriptors_eq_error_iff {e : SchemaError} :
    m.descriptors = .error e ↔ HostFunction.FirstRefused m.functions e := by
  rw [← HostFunction.compileAll_eq_error_iff, descriptors, hostFunctions]
  cases HostFunction.compileAll m.functions <;> simp [Except.map]

/-- **The descriptors tell the keys** under which the artifacts are registered, in the same order. -/
theorem exists_descriptors (h : HostFunction.AreCompiled m.functions fs) :
    ∃ ds, m.descriptors = .ok ds ∧ ds.map Descriptor.reference =
      ((m.artifactTypes ++ fs.map Artifact.function).map Artifact.reference).map Reference.text := by
  rw [descriptors, hostFunctions, HostFunction.compileAll_eq_ok_iff.mpr h]
  refine ⟨_, rfl, ?_⟩
  simp only [artifactTypes, activityTypes, triggerTypes, List.map_append, List.map_map,
    Function.comp_def, h.map_reference]
  rfl

/-! ## The main statement -/

/-- **A manifest is registered step by step.** First come the activities and triggers, in order:

* if the key of one is taken, in the registry or by an earlier one, the registration ends there with a
  conflict, and exactly those before it are gained;
* otherwise, if the arguments of a function do not compile, it ends with the error of the first such
  function, and exactly the activities and triggers are gained;
* otherwise it goes on with the functions, under the same rule for taken keys, and if there is no
  conflict either, it gives all keys.

What was in the registry before stays there in every case. If all keys are given, they are those that the
descriptors tell, one for each artifact and none twice, and each artifact is found as what it is. The
descriptors fail exactly if the arguments of a function do not compile, with the error of the first. -/
theorem register_stepwise (m : Manifest) (r : Registry) :
    let outcome := (m.register r).value
    (¬r.AllFree m.artifactTypes → ∃ before a, r.FirstTaken m.artifactTypes before a ∧
      outcome.2 = .error (.conflict a.reference.text) ∧ r.Gains before outcome.1) ∧
    (r.AllFree m.artifactTypes →
      (∃ d ∈ m.functions, ∃ e, Signature.compile d.arguments d.result = .error e) →
      ∃ e, HostFunction.FirstRefused m.functions e ∧ outcome.2 = .error (.schema e) ∧
        r.Gains m.artifactTypes outcome.1) ∧
    (r.AllFree m.artifactTypes →
      (∀ d ∈ m.functions, ∃ s, Signature.compile d.arguments d.result = .ok s) →
      ∃ fs, HostFunction.AreCompiled m.functions fs ∧
        let all := m.artifactTypes ++ fs.map Artifact.function
        (¬r.AllFree all → ∃ before a, r.FirstTaken all before a ∧
          outcome.2 = .error (.conflict a.reference.text) ∧ r.Gains before outcome.1) ∧
        (r.AllFree all → outcome.2 = .ok (all.map Artifact.reference) ∧ r.Gains all outcome.1)) ∧
    (∀ reference a, r.get? reference = some a → outcome.1.get? reference = some a) ∧
    (∀ refs, outcome.2 = .ok refs → ∃ fs ds, HostFunction.AreCompiled m.functions fs ∧
      m.descriptors = .ok ds ∧ ds.map Descriptor.reference = refs.map Reference.text ∧
      refs.length = m.activities.length + m.triggers.length + m.functions.length ∧ refs.Nodup ∧
      refs = m.activityTypes.map ActivityType.reference ++ m.triggerTypes.map TriggerType.reference ++
        fs.map HostFunction.reference ∧
      (∀ t ∈ m.activityTypes, outcome.1.activity t.reference = .ok t) ∧
      (∀ t ∈ m.triggerTypes, outcome.1.trigger t.reference = .ok t) ∧
      ∀ f ∈ fs, outcome.1.function f.reference = .ok f) ∧
    ((∃ e, m.descriptors = .error e) ↔
      ∃ d ∈ m.functions, ∃ e, Signature.compile d.arguments d.result = .error e) ∧
    ∀ e, m.descriptors = .error e ↔ HostFunction.FirstRefused m.functions e := by
  intro outcome
  refine ⟨fun htaken => ?_, fun free hrefused => ?_, fun free hcompile => ?_, fun _ _ => register_kept,
    fun refs hrefs => ?_, ?_, fun e => descriptors_eq_error_iff⟩
  · obtain ⟨before, a, hfirst⟩ := Registry.exists_firstTaken htaken
    have heq : outcome = _ := register_of_firstTaken hfirst
    rw [heq]
    exact ⟨before, a, hfirst, rfl, hfirst.free.gains⟩
  · obtain ⟨e, he⟩ := HostFunction.exists_firstRefused_iff.mpr hrefused
    have heq : outcome = _ := register_of_firstRefused free he
    rw [heq]
    exact ⟨e, he, rfl, free.gains⟩
  · obtain ⟨fs, hfs⟩ := HostFunction.exists_areCompiled fun d hd =>
      HostFunction.exists_compile_eq_ok_iff.mpr (hcompile d hd)
    have heq : outcome = _ := register_of_areCompiled free hfs
    refine ⟨fs, hfs, fun htaken => ?_, fun hfree => ?_⟩
    · obtain ⟨before, a, hfirst⟩ := Registry.exists_firstTaken htaken
      rw [heq, Registry.registerAll_of_firstTaken hfirst]
      exact ⟨before, a, hfirst, rfl, hfirst.free.gains⟩
    · rw [heq, Registry.registerAll_of_allFree hfree]
      exact ⟨rfl, hfree.gains⟩
  · obtain ⟨fs, hfs, hfree, hgains, rfl⟩ := register_eq_ok hrefs
    obtain ⟨ds, hds, hkeys⟩ := exists_descriptors hfs
    refine ⟨fs, ds, hfs, hds, hkeys, length_references hfs, hfree.1, references_eq m fs,
      fun t ht => hgains.activity hfree ?_, fun t ht => hgains.trigger hfree ?_,
      fun f hf => hgains.function hfree ?_⟩
    · simp [artifactTypes, ht]
    · simp [artifactTypes, ht]
    · simp [hf]
  · rw [← HostFunction.exists_firstRefused_iff]
    exact exists_congr fun e => descriptors_eq_error_iff

end Manifest

end ExtensionKit
