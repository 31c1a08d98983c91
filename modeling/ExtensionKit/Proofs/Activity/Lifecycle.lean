import ExtensionKit.Artifact.Activity
import ExtensionKit.Proofs.Record.Runs

/-!
# The life of an activity

An instance is called one call after another: invocations, each for a host of its own, and cleanups. The
author's logic may do anything, but for two things: it reaches its output by assignments and fillings,
and it leaves the instance that runs it alone (`ActivityLogic.Orderly`).

An invocation ends in one of four ways, each with its own equation: it is refused since the instance is
cleaned up (`Session.invoke_of_cleaned`), the input is rejected (`Session.invoke_of_rejected`), the logic
fails (`Session.invoke_of_failed`), or an output is handed over (`Session.invoke_of_evaluated`). In all of
them it is no longer counted in the end, so that a run changes nothing of an instance but whether it is
cleaned up (`Session.activity_run`).
-/

namespace ExtensionKit

open ActivityHost (inputs setOutputs)

/-- A call of an instance. -/
inductive ActivityCall (κ : Type) where
  /-- an invocation for a host -/
  | invoke (host : κ)
  /-- the end of the instance -/
  | cleanup

/-- Logic that changes its output by assignments and fillings only, and leaves its instance alone. -/
structure ActivityLogic.Orderly {σ : Type} (logic : ActivityLogic σ) : Prop where
  /-- the output is reached from the one that was given -/
  reached : ∀ {settings input output s r}, (logic settings input output s).1 = .ok r →
    ∃ calls, r = output.run calls
  /-- the instance is left alone -/
  kept : ∀ {settings input output s}, (logic settings input output s).2.activity = s.activity

/-- An instance is made open, with no invocation running. -/
theorem Activity.fresh_of_newInstance {type : ActivityType} {raw : Members} {parent : Logger}
    {a : Activity} (created : (type.newInstance raw parent).value = .ok a) :
    a.running = 0 ∧ a.isCleaned = false := by
  rw [ActivityType.newInstance] at created
  split at created
  · cases created
  · obtain rfl := Except.ok.inj created
    exact ⟨rfl, rfl⟩

namespace Session

variable {κ σ : Type} [ActivityHost κ] {logic : ActivityLogic σ} {host : κ} {s : Session σ}

/-- The session after a call. -/
def after (logic : ActivityLogic σ) (s : Session σ) : ActivityCall κ → Session σ
  | .invoke host => (s.invoke logic host).session
  | .cleanup => s.cleanup

/-- The session after some calls. -/
def run (logic : ActivityLogic σ) (s : Session σ) (calls : List (ActivityCall κ)) : Session σ :=
  calls.foldl (after logic) s

/-- The session as the logic finds it in an invocation. -/
def admitted (s : Session σ) (host : κ) (input : Record) : Session σ :=
  (s.enter.begin host).reportAll
    (ActivityType.fieldEvents s.activity.logger "Input" s.activity.metadata.input input)

/-- What the logic makes of an input in an invocation. -/
def evaluated (logic : ActivityLogic σ) (s : Session σ) (host : κ) (input : Record) :
    Except Fault Record × Session σ :=
  logic s.activity.settings input (Record.new s.activity.metadata.output) (s.admitted host input)

/-! ## The ends of an invocation -/

/-- After its end an instance refuses to be invoked, and nothing changes. -/
theorem invoke_of_cleaned (cleaned : s.activity.isCleaned = true) :
    s.invoke logic host =
      ⟨.error (.transition s.activity.name "eval" ActivityState.cleaned.name), host, s⟩ := by
  rw [invoke]
  exact if_pos cleaned

/-- An invocation that is not refused is admitted, and counted until its end. -/
theorem invoke_of_open (isOpen : s.activity.isCleaned = false) :
    s.invoke logic host =
      { s.enter.invokeAdmitted logic host with
        session := (s.enter.invokeAdmitted logic host).session.leave } := by
  rw [invoke]
  exact if_neg (Bool.eq_false_iff.mp isOpen)

/-- An input that the contract does not take ends the invocation before the logic runs. -/
theorem invoke_of_rejected (isOpen : s.activity.isCleaned = false) {e : RecordError}
    (rejected : s.activity.metadata.input.ofMembers (inputs host) = .error e) :
    s.invoke logic host = ⟨.error (.record e), host, s.begin host⟩ := by
  have hread : (s.enter.begin host).activity.metadata.input.ofMembers (inputs host) = .error e :=
    rejected
  rw [invoke_of_open isOpen, invokeAdmitted, hread]
  rfl

/-- A fault of the logic is the result, and the host is not reached. -/
theorem invoke_of_failed (isOpen : s.activity.isCleaned = false) {input : Record} {e : Fault}
    (accepted : s.activity.metadata.input.ofMembers (inputs host) = .ok input)
    (failed : (s.evaluated logic host input).1 = .error e) :
    s.invoke logic host = ⟨.error e, host, (s.evaluated logic host input).2.leave⟩ := by
  have hread : (s.enter.begin host).activity.metadata.input.ofMembers (inputs host) = .ok input :=
    accepted
  have hlogic : (s.enter.begin host).evaluate logic input =
      (.error e, (s.evaluated logic host input).2) := Prod.ext failed rfl
  rw [invoke_of_open isOpen, invokeAdmitted, hread]
  simp only [hlogic]

/-- What the logic gives is handed over to the host. -/
theorem invoke_of_evaluated (isOpen : s.activity.isCleaned = false) {input output : Record}
    (accepted : s.activity.metadata.input.ofMembers (inputs host) = .ok input)
    (given : (s.evaluated logic host input).1 = .ok output) :
    s.invoke logic host =
      { (s.evaluated logic host input).2.handOver output host with
        session := ((s.evaluated logic host input).2.handOver output host).session.leave } := by
  have hread : (s.enter.begin host).activity.metadata.input.ofMembers (inputs host) = .ok input :=
    accepted
  have hlogic : (s.enter.begin host).evaluate logic input =
      (.ok output, (s.evaluated logic host input).2) := Prod.ext given rfl
  rw [invoke_of_open isOpen, invokeAdmitted, hread]
  simp only [hlogic]

/-- Handing an output over succeeds exactly if the host takes it. -/
theorem result_handOver (output : Record) (host : κ) (s : Session σ) :
    (s.handOver output host).result = (setOutputs output.toMembers host).1.map fun _ => true := by
  rw [handOver]
  split <;> next h => rw [h]; rfl

theorem host_handOver (output : Record) (host : κ) (s : Session σ) :
    (s.handOver output host).host = (setOutputs output.toMembers host).2 := by
  rw [handOver]
  split <;> next h => rw [h]

/-- Handing an output over leaves the instance alone. -/
theorem activity_handOver (output : Record) (host : κ) (s : Session σ) :
    (s.handOver output host).session.activity = s.activity := by
  rw [handOver]
  split <;> rfl

/-- While the logic runs, the invocation is counted. -/
theorem state_admitted (isOpen : s.activity.isCleaned = false) (host : κ) (input : Record) :
    (s.admitted host input).activity.state = .evaluating := by
  change (if s.activity.isCleaned then _ else if 0 < s.activity.running + 1 then _ else _) = _
  rw [isOpen, if_neg Bool.false_ne_true, if_pos (Nat.succ_pos _)]

/-! ## What a call changes of the instance -/

theorem activity_leave {t : Session σ} (h : t.activity = s.enter.activity) :
    t.leave.activity = s.activity := by
  rw [leave, h]
  rfl

/-- **An invocation leaves the instance as it was**, whichever way it ends. -/
theorem activity_invoke (orderly : logic.Orderly) (s : Session σ) (host : κ) :
    (s.invoke logic host).session.activity = s.activity := by
  rcases hcleaned : s.activity.isCleaned with _ | _
  · rcases hinput : s.activity.metadata.input.ofMembers (inputs host) with e | input
    · rw [invoke_of_rejected hcleaned hinput]
      rfl
    · have hkept : (s.evaluated logic host input).2.activity = s.enter.activity := orderly.kept
      rcases hlogic : (s.evaluated logic host input).1 with e | output
      · rw [invoke_of_failed hcleaned hinput hlogic]
        exact activity_leave hkept
      · rw [invoke_of_evaluated hcleaned hinput hlogic]
        exact activity_leave ((activity_handOver ..).trans hkept)
  · rw [invoke_of_cleaned hcleaned]

theorem cleanup_of_cleaned (cleaned : s.activity.isCleaned = true) : s.cleanup = s := by
  rw [cleanup, if_pos cleaned]

theorem activity_cleanup (s : Session σ) :
    s.cleanup.activity = { s.activity with isCleaned := true } := by
  rcases hcleaned : s.activity.isCleaned with _ | _
  · rw [cleanup, hcleaned, if_neg Bool.false_ne_true]
    dsimp only
    split <;> rfl
  · rw [cleanup_of_cleaned hcleaned, ← hcleaned]

/-- **A run changes nothing of the instance but whether it is cleaned up.** -/
theorem activity_run (orderly : logic.Orderly) (s : Session σ) (calls : List (ActivityCall κ)) :
    (s.run logic calls).activity =
        { s.activity with isCleaned := (s.run logic calls).activity.isCleaned } ∧
      ((s.run logic calls).activity.isCleaned = true ↔
        s.activity.isCleaned = true ∨ .cleanup ∈ calls) := by
  induction calls generalizing s with
  | nil => exact ⟨rfl, by simp [run]⟩
  | cons call rest ih =>
    obtain ⟨hkept, hcleaned⟩ := ih (s.after logic call)
    change (s.run logic (call :: rest)).activity = _ at hkept
    cases call with
    | invoke host =>
      rw [after, activity_invoke orderly] at hkept hcleaned
      exact ⟨hkept, hcleaned.trans (by simp)⟩
    | cleanup =>
      rw [after, activity_cleanup] at hkept hcleaned
      exact ⟨hkept, hcleaned.trans (by simp)⟩

/-! ## What an invocation gives -/

/-- The output of orderly logic is a sound record of the output type. -/
theorem sound_evaluated (orderly : logic.Orderly) {input output : Record}
    (given : (s.evaluated logic host input).1 = .ok output) :
    output.Sound ∧ output.contract = s.activity.metadata.output := by
  obtain ⟨calls, rfl⟩ := orderly.reached given
  exact ⟨(Record.sound_new _).run calls, Record.contract_run _ calls⟩

/-- What an invocation for a host does if it is not refused. -/
structure Served (logic : ActivityLogic σ) (s : Session σ) (host : κ) : Prop where
  /-- the logic finds the state evaluating, and the world as it was -/
  found : ∀ input, (s.admitted host input).activity.state = .evaluating ∧
    (s.admitted host input).world = s.world
  /-- it succeeds exactly if the input is accepted, the logic succeeds, and the host takes the output -/
  succeeds_iff : (s.invoke logic host).result.isOk = true ↔ ∃ input output,
    s.activity.metadata.input.ofMembers (inputs host) = .ok input ∧
      (s.evaluated logic host input).1 = .ok output ∧
        (setOutputs output.toMembers host).1 = .ok ()
  /-- then the host was given the output under the declared names, in order, in a form that the output
  type reads back and projects to the same object -/
  succeeded : (s.invoke logic host).result.isOk = true →
    (s.invoke logic host).result = .ok true ∧ ∃ input output,
      s.activity.metadata.input.ofMembers (inputs host) = .ok input ∧
        (s.evaluated logic host input).1 = .ok output ∧
          (s.invoke logic host).host = (setOutputs output.toMembers host).2 ∧
            output.toMembers.keys = s.activity.metadata.output.fields.map Field.name ∧
              ∃ r, s.activity.metadata.output.ofMembers output.toMembers = .ok r ∧
                r.toMembers = output.toMembers
  /-- if the input is rejected, the host is as it was and the logic is not run: the world is as it was, and
  all other logic has the same outcome -/
  rejected : ∀ e, s.activity.metadata.input.ofMembers (inputs host) = .error e →
    (s.invoke logic host).result = .error (.record e) ∧ (s.invoke logic host).host = host ∧
      (s.invoke logic host).session.world = s.world ∧
        ∀ other : ActivityLogic σ, s.invoke other host = s.invoke logic host
  /-- if the logic fails, the host is as it was -/
  failed : ∀ input e, s.activity.metadata.input.ofMembers (inputs host) = .ok input →
    (s.evaluated logic host input).1 = .error e →
      (s.invoke logic host).result = .error e ∧ (s.invoke logic host).host = host

/-- **When an invocation succeeds.** -/
theorem isOk_invoke_iff (isOpen : s.activity.isCleaned = false) :
    (s.invoke logic host).result.isOk = true ↔ ∃ input output,
      s.activity.metadata.input.ofMembers (inputs host) = .ok input ∧
        (s.evaluated logic host input).1 = .ok output ∧
          (setOutputs output.toMembers host).1 = .ok () := by
  constructor
  · intro h
    rcases hinput : s.activity.metadata.input.ofMembers (inputs host) with e | input
    · rw [invoke_of_rejected isOpen hinput] at h
      cases h
    · rcases hlogic : (s.evaluated logic host input).1 with e | output
      · rw [invoke_of_failed isOpen hinput hlogic] at h
        cases h
      · rw [invoke_of_evaluated isOpen hinput hlogic, result_handOver] at h
        rcases htaken : (setOutputs output.toMembers host).1 with e | ⟨⟩
        · rw [htaken] at h
          cases h
        · exact ⟨input, output, rfl, hlogic, htaken⟩
  · rintro ⟨input, output, hinput, hlogic, htaken⟩
    rw [invoke_of_evaluated isOpen hinput hlogic, result_handOver, htaken]
    rfl

/-- **An open instance serves every host.** -/
theorem served_of_open (orderly : logic.Orderly) (isOpen : s.activity.isCleaned = false) (host : κ) :
    Served logic s host where
  found input := ⟨state_admitted isOpen host input, rfl⟩
  succeeds_iff := isOk_invoke_iff isOpen
  succeeded hok := by
    obtain ⟨input, output, hinput, hlogic, htaken⟩ := (isOk_invoke_iff isOpen).mp hok
    obtain ⟨hsound, hcontract⟩ := sound_evaluated orderly hlogic
    refine ⟨?_, input, output, hinput, hlogic, ?_, hcontract ▸ hsound.projection⟩
    · rw [invoke_of_evaluated isOpen hinput hlogic, result_handOver, htaken]
      rfl
    · rw [invoke_of_evaluated isOpen hinput hlogic, host_handOver]
  rejected e hinput := by
    have hany (other : ActivityLogic σ) : s.invoke other host = _ := invoke_of_rejected isOpen hinput
    rw [hany logic]
    exact ⟨rfl, rfl, rfl, hany⟩
  failed input e hinput hlogic := by
    rw [invoke_of_failed isOpen hinput hlogic]
    exact ⟨rfl, rfl⟩

/-! ## The main statement -/

/-- **The life of an activity.** After any calls of an instance, with any orderly logic, no invocation is
counted, and the instance is the one that was made but for being cleaned up. As long as there was no
cleanup, the state is initialized and the next invocation is served, for whatever host. From the first
cleanup on the state is cleaned, another cleanup changes nothing, and an invocation is refused without a
change to the host or the session, whatever the logic. -/
theorem run_lifecycle {type : ActivityType} {raw : Members} {parent : Logger} {a : Activity}
    (created : (type.newInstance raw parent).value = .ok a) (orderly : logic.Orderly) (world : σ)
    (calls : List (ActivityCall κ)) :
    let s := (start a world).run logic calls
    (s.activity = { a with isCleaned := s.activity.isCleaned } ∧ s.activity.running = 0) ∧
    (.cleanup ∉ calls → s.activity.state = .initialized ∧ ∀ host : κ, Served logic s host) ∧
    (.cleanup ∈ calls →
      s.activity.state = .cleaned ∧ s.cleanup = s ∧ ∀ (host : κ) (other : ActivityLogic σ),
        s.invoke other host =
          ⟨.error (.transition a.name "eval" ActivityState.cleaned.name), host, s⟩) := by
  intro s
  obtain ⟨hrunning, hfresh⟩ := Activity.fresh_of_newInstance created
  obtain ⟨hkept, hcleaned⟩ := activity_run orderly (start a world) calls
  change s.activity = { a with isCleaned := s.activity.isCleaned } at hkept
  change s.activity.isCleaned = true ↔ a.isCleaned = true ∨ .cleanup ∈ calls at hcleaned
  rw [hfresh] at hcleaned
  have hidle : s.activity.running = 0 := by rw [hkept]; exact hrunning
  refine ⟨⟨hkept, hidle⟩, fun hnone => ?_, fun hsome => ?_⟩
  · have hopen : s.activity.isCleaned = false :=
      Bool.eq_false_iff.mpr fun h => hnone ((hcleaned.mp h).resolve_left Bool.false_ne_true)
    refine ⟨?_, served_of_open orderly hopen⟩
    rw [Activity.state, hopen, hidle]
    rfl
  · have hclosed : s.activity.isCleaned = true := hcleaned.mpr (.inr hsome)
    have hname : s.activity.name = a.name := by rw [hkept]
    refine ⟨?_, cleanup_of_cleaned hclosed, fun host other => ?_⟩
    · rw [Activity.state, hclosed]
      rfl
    · rw [invoke_of_cleaned hclosed, hname]

/-- Logic that counts its runs, on an instance whose first input is rejected: nothing is counted then, the
next invocation hands a message over, and after a cleanup the host is left as it is. -/
theorem run_lifecycle_rejectedInput :
    let type := ActivityType.ofDefinition "mylib"
      ⟨"greeter", ⟨[], .nil⟩, ⟨[⟨"count", .int⟩], List.pairwise_singleton _ _⟩,
        ⟨[⟨"message", .string⟩], List.pairwise_singleton _ _⟩⟩
    let logic : ActivityLogic Nat := fun _ _ output s =>
      ((output.set "message" (.string "hi")).mapError .record, { s with world := s.world + 1 })
    let bad : ActivityContext := ⟨"step", [("count", .string "lots")], [], fun _ => .ok ()⟩
    let good : ActivityContext := ⟨"step", [], [], fun _ => .ok ()⟩
    ∃ a, (type.newInstance [] .root).value = .ok a ∧ logic.Orderly ∧
      let s := (start a 0).run logic [.invoke bad]
      s.activity.state = .initialized ∧ s.world = 0 ∧
        ((s.invoke logic good).result = .ok true ∧
          (s.invoke logic good).host.outputs = [("message", .string "hi")]) ∧
        (s.cleanup.invoke logic good).host = good := by
  intro type logic bad good
  have orderly : logic.Orderly := by
    refine ⟨fun {settings input output s r} h => ?_, rfl⟩
    refine ⟨[.set "message" (.string "hi")], ?_⟩
    change (output.set "message" (.string "hi")).mapError Fault.record = .ok r at h
    rw [Record.run, List.foldl_cons, List.foldl_nil, Record.after]
    rcases hset : output.set "message" (.string "hi") with e | r'
    · rw [hset] at h
      cases h
    · rw [hset] at h
      exact (Except.ok.inj h).symm
  have created : (type.newInstance [] .root).value =
      .ok ⟨"greeter", Logger.root.child "mylib-greeter", .new type.metadata.settings, type.metadata, 0,
        false⟩ := rfl
  obtain ⟨-, hopen, -⟩ := run_lifecycle created orderly 0 [.invoke bad]
  obtain ⟨-, -, hcleaned⟩ := run_lifecycle created orderly 0 [.invoke bad, .cleanup]
  obtain ⟨hstate, hserved⟩ := hopen (by simp)
  obtain ⟨-, -, hrefused⟩ := hcleaned (by simp)
  refine ⟨_, created, orderly, hstate, rfl, ⟨((hserved good).succeeded rfl).1, rfl⟩, ?_⟩
  exact congrArg ActivityOutcome.host (hrefused good logic)

end Session

end ExtensionKit
