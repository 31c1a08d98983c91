import ExtensionKit.Artifact.Function
import ExtensionKit.Proofs.List.First
import ExtensionKit.Proofs.Typing.Fits
import Mathlib.Data.List.Forall2

/-!
# Before the body runs

An evaluation compares the number of parameters with the number of declared arguments, and then coerces
the parameters by position. What is passed for one argument is coerced without regard to the others
(`Field.passed`), so the parameters are taken as a whole or there is a first one that is refused.

* A refusal is reported with the position and the name of its argument, and the body is not called
  (`Signature.coerce_of_error`).
* Else the body is called once, with values that are what the parameters are coerced to, position by
  position (`Signature.Passes`), and that have the representations that the signature announces.
-/

namespace ExtensionKit

/-- The outcome of coercing what is passed for an argument. -/
def Field.passed (a : Field) (raw : Json) : Except CoercionError Value :=
  a.type.argumentCoercion.apply raw

namespace Signature

/-! ## Coercing by position -/

/-- The values are what the parameters are coerced to, position by position. -/
def Passes (arguments : List Field) (params : List Json) (args : List Value) : Prop :=
  List.Forall₂ (fun p v => p.1.passed p.2 = .ok v) (arguments.zip params) args

theorem coerceFrom_cons_ok {index : Nat} {a : Field} {raw : Json} {v : Value} (h : a.passed raw = .ok v)
    (arguments : List Field) (params : List Json) :
    coerceFrom index (a :: arguments) (raw :: params) =
      (coerceFrom (index + 1) arguments params).map (v :: ·) := by
  rw [Field.passed] at h
  rw [coerceFrom, h]
  rcases coerceFrom (index + 1) arguments params with e | args <;> rfl

/-- The first parameter that is refused ends the coercion, at its position. -/
theorem coerceFrom_cons_error {index : Nat} {a : Field} {raw : Json} {e : CoercionError}
    (h : a.passed raw = .error e) (arguments : List Field) (params : List Json) :
    coerceFrom index (a :: arguments) (raw :: params) = .error (.argument index a.name e) := by
  rw [Field.passed] at h
  rw [coerceFrom, h]

/-- If every parameter is taken, the values are those of the parameters. -/
theorem coerceFrom_of_ok {arguments : List Field} {params : List Json} (index : Nat)
    (h : ∀ p ∈ arguments.zip params, ∃ v, p.1.passed p.2 = .ok v) :
    ∃ args, coerceFrom index arguments params = .ok args ∧ Passes arguments params args := by
  induction arguments generalizing index params with
  | nil => exact ⟨[], by rw [coerceFrom]; nofun, .nil⟩
  | cons a arguments ih =>
    cases params with
    | nil => exact ⟨[], by rw [coerceFrom]; nofun, .nil⟩
    | cons raw params =>
      rw [List.zip_cons_cons] at h
      obtain ⟨v, hv⟩ := h (a, raw) (List.mem_cons_self ..)
      obtain ⟨args, hargs, passes⟩ := ih (index + 1) fun p hp => h p (List.mem_cons_of_mem _ hp)
      refine ⟨v :: args, ?_, .cons hv passes⟩
      rw [coerceFrom_cons_ok hv, hargs]
      rfl

/-- The first parameter that is refused is reported, with its position and the name of its argument. -/
theorem coerceFrom_of_error {before after : List (Field × Json)} {a : Field} {raw : Json}
    {e : CoercionError} {arguments : List Field} {params : List Json} (index : Nat)
    (hzip : arguments.zip params = before ++ (a, raw) :: after)
    (h : ∀ p ∈ before, ∃ v, p.1.passed p.2 = .ok v) (he : a.passed raw = .error e) :
    coerceFrom index arguments params = .error (.argument (index + before.length) a.name e) := by
  induction before generalizing index arguments params with
  | nil =>
    obtain ⟨arguments, params, rfl, rfl, -⟩ := List.zip_eq_cons_iff.mp hzip
    exact coerceFrom_cons_error he arguments params
  | cons p before ih =>
    obtain ⟨arguments, params, rfl, rfl, hrest⟩ := List.zip_eq_cons_iff.mp hzip
    obtain ⟨v, hv⟩ := h p (List.mem_cons_self ..)
    have hlater := ih (index + 1) hrest.symm fun q hq => h q (List.mem_cons_of_mem _ hq)
    rw [coerceFrom_cons_ok hv, hlater]
    rw [List.length_cons, Nat.add_assoc, Nat.add_comm 1]
    rfl

/-! ## What the body is given -/

namespace Passes

variable {arguments : List Field} {params : List Json} {args : List Value}

/-- What is passed at a position is what the coercion there gives. -/
theorem getElem? (h : Passes arguments params args) {i : Nat} {a : Field} {raw : Json}
    (ha : arguments[i]? = some a) (hraw : params[i]? = some raw) :
    ∃ v, args[i]? = some v ∧ a.passed raw = .ok v := by
  obtain ⟨hlength, hget⟩ := List.forall₂_iff_get.mp h
  have hpair : (arguments.zip params)[i]? = some (a, raw) :=
    List.getElem?_zip_eq_some.mpr ⟨ha, hraw⟩
  obtain ⟨hi, hzip⟩ := List.getElem?_eq_some_iff.mp hpair
  have hi' : i < args.length := hlength ▸ hi
  have hv := hget i hi hi'
  rw [List.get_eq_getElem, hzip] at hv
  exact ⟨args[i], List.getElem?_eq_getElem hi', hv⟩

/-- What is passed fits the arguments, position by position. -/
theorem fits (h : Passes arguments params args) (hlength : params.length = arguments.length) :
    List.Forall₂ (fun a v => v.Fits a.type.argumentCoercion.target) arguments args := by
  induction arguments generalizing params args with
  | nil =>
    rw [Passes, List.zip_nil_left, List.forall₂_nil_left_iff] at h
    exact h ▸ .nil
  | cons a arguments ih =>
    obtain ⟨raw, params, rfl⟩ := List.exists_cons_of_length_eq_add_one hlength
    rw [Passes, List.zip_cons_cons, List.forall₂_cons_left_iff] at h
    obtain ⟨v, args, hv, hrest, rfl⟩ := h
    exact .cons (Coercion.fits_of_apply hv) (ih hrest (Nat.succ.inj hlength))

theorem length_eq (h : Passes arguments params args) (hlength : params.length = arguments.length) :
    args.length = arguments.length :=
  (h.fits hlength).length_eq.symm

/-- The values have the representations that the signature tells. -/
theorem map_representation (h : Passes arguments params args)
    (hlength : params.length = arguments.length) :
    args.map Value.representation = arguments.map fun a => a.type.argumentCoercion.target := by
  rw [← List.forall₂_eq_eq_eq, List.forall₂_map_left_iff, List.forall₂_map_right_iff]
  exact ((h.fits hlength).imp fun _ _ fits => fits.held).flip

/-- No number that is passed is infinite or `nan`. -/
theorem isFinite (h : Passes arguments params args) (hlength : params.length = arguments.length)
    {x : Binary64} (hx : .float64 x ∈ args) : x.isFinite = true := by
  have hfits := h.fits hlength
  clear h hlength
  induction hfits with
  | nil => cases hx
  | cons fits _ ih =>
    rcases List.mem_cons.mp hx with rfl | hx
    · exact fits.finite x rfl
    · exact ih hx

end Passes

/-! ## Coercing a list of parameters -/

/-- A wrong number of parameters is told before any of them is looked at. -/
theorem coerce_of_length_ne {s : Signature} {params : List Json} (h : params.length ≠ s.arity) :
    s.coerce params = .error (.arity s.arity params.length) := by
  rw [coerce, if_pos h]

theorem coerce_of_length_eq {s : Signature} {params : List Json} (h : params.length = s.arity) :
    s.coerce params = coerceFrom 0 s.parameters.fields params := by
  rw [coerce, if_neg (not_not.mpr h)]

/-- The parameter at a position is the first one that is refused. -/
structure FirstRefused (arguments : List Field) (params : List Json) (k : Nat) (a : Field)
    (e : CoercionError) : Prop where
  /-- the argument at the position -/
  argument : arguments[k]? = some a
  /-- what is passed for it is refused -/
  refused : ∃ raw, params[k]? = some raw ∧ a.passed raw = .error e
  /-- what is passed before it is taken -/
  taken : ∀ j < k, ∀ b raw, arguments[j]? = some b → params[j]? = some raw →
    ∃ v, b.passed raw = .ok v

/-- Of two refused parameters the first one is not after the other. -/
theorem FirstRefused.le {arguments : List Field} {params : List Json} {k k' : Nat} {a a' : Field}
    {e e' : CoercionError} (h : FirstRefused arguments params k a e)
    (h' : FirstRefused arguments params k' a' e') : k ≤ k' := by
  obtain ⟨raw, hraw, he⟩ := h'.refused
  by_contra hlt
  obtain ⟨v, hv⟩ := h.taken k' (Nat.lt_of_not_le hlt) a' raw h'.argument hraw
  rw [he] at hv
  cases hv

/-- There is one first refused parameter at most. -/
theorem FirstRefused.unique {arguments : List Field} {params : List Json} {k k' : Nat} {a a' : Field}
    {e e' : CoercionError} (h : FirstRefused arguments params k a e)
    (h' : FirstRefused arguments params k' a' e') : k = k' ∧ a = a' ∧ e = e' := by
  obtain rfl : k = k' := Nat.le_antisymm (h.le h') (h'.le h)
  obtain rfl : a = a' := Option.some.inj (h.argument.symm.trans h'.argument)
  obtain ⟨raw, hraw, he⟩ := h.refused
  obtain ⟨raw', hraw', he'⟩ := h'.refused
  obtain rfl : raw = raw' := Option.some.inj (hraw.symm.trans hraw')
  exact ⟨rfl, rfl, Except.error.inj (he.symm.trans he')⟩

/-- A first refused parameter, in terms of what comes before and after it. -/
theorem firstRefused_of_split {arguments : List Field} {params : List Json}
    {before after : List (Field × Json)} {a : Field} {raw : Json} {e : CoercionError}
    (hzip : arguments.zip params = before ++ (a, raw) :: after)
    (h : ∀ p ∈ before, ∃ v, p.1.passed p.2 = .ok v) (he : a.passed raw = .error e) :
    FirstRefused arguments params before.length a e := by
  have hat : (arguments.zip params)[before.length]? = some (a, raw) := by
    rw [hzip, List.getElem?_append_right (Nat.le_refl _), Nat.sub_self]
    rfl
  obtain ⟨ha, hraw⟩ := List.getElem?_zip_eq_some.mp hat
  refine ⟨ha, ⟨raw, hraw, he⟩, ?_⟩
  intro j hj b r hb hr
  have hpair : (arguments.zip params)[j]? = some (b, r) := List.getElem?_zip_eq_some.mpr ⟨hb, hr⟩
  rw [hzip, List.getElem?_append_left hj] at hpair
  exact h (b, r) (List.mem_of_getElem? hpair)

end Signature

/-! ## The main statement -/

namespace HostFunction

/-- Parameters that are refused do not reach the body. -/
theorem eval_of_error {f : HostFunction} {params : List Json} {e : RecordError}
    (h : f.signature.coerce params = .error e) :
    f.eval params = ⟨[f.startEvent], [], .error (.record e)⟩ := by
  rw [eval, h]

/-- The body is called once, on the coerced parameters. -/
theorem eval_of_body {f : HostFunction} {params : List Json} {args : List Value}
    {body : List Value → Except Fault Value} (h : f.signature.coerce params = .ok args)
    (hbody : f.body = some body) : f.eval params = ⟨[f.startEvent], [args], body args⟩ := by
  simp only [eval, h, hbody]

/-- Without a body the result is the stand-in. -/
theorem eval_of_noBody {f : HostFunction} {params : List Json} {args : List Value}
    (h : f.signature.coerce params = .ok args) (hbody : f.body = none) :
    f.eval params = ⟨[f.startEvent], [], .ok f.signature.placeholder⟩ := by
  simp only [eval, h, hbody]

/-- **What comes before the body.** For a function whose signature is compiled from some arguments:

* a wrong number of parameters is an error that tells both numbers, whatever the values are;
* else, if a parameter is refused, the error is about the first one that is, with its position, the name
  of its argument, and why. In neither case is the body called;
* else the body, if there is one, is called once. It is given a value for each argument, which is what
  the parameter at that position is coerced to. The values have the representations that the signature
  announces, and numbers among them are finite. -/
theorem eval_prologue {f : HostFunction} {arguments : List Field} {result : FieldType}
    (compiled : Signature.compile arguments result = .ok f.signature) (params : List Json) :
    (params.length ≠ arguments.length ∧
      f.eval params =
        ⟨[f.startEvent], [], .error (.record (.arity arguments.length params.length))⟩) ∨
    (params.length = arguments.length ∧ ∃ k a e,
      Signature.FirstRefused arguments params k a e ∧
      f.eval params = ⟨[f.startEvent], [], .error (.record (.argument k a.name e))⟩) ∨
    (params.length = arguments.length ∧ ∃ args : List Value,
      args.length = arguments.length ∧
      (∀ (i : Nat) (a : Field) (raw : Json), arguments[i]? = some a → params[i]? = some raw →
        ∃ v, args[i]? = some v ∧ a.type.argumentCoercion.apply raw = .ok v) ∧
      args.map Value.representation = f.signature.representations ∧
      (∀ x, .float64 x ∈ args → x.isFinite = true) ∧
      (∀ body, f.body = some body → f.eval params = ⟨[f.startEvent], [args], body args⟩) ∧
      (f.body = none →
        f.eval params = ⟨[f.startEvent], [], .ok f.signature.placeholder⟩)) := by
  have hfields : f.signature.parameters.fields = arguments :=
    Signature.fields_of_compile compiled
  have harity : f.signature.arity = arguments.length := congrArg List.length hfields
  by_cases hlength : params.length = arguments.length
  · have hcoerce := Signature.coerce_of_length_eq (hlength.trans harity.symm)
    rw [hfields] at hcoerce
    refine .inr ?_
    rcases all_ok_or_first_error (fun p : Field × Json => p.1.passed p.2) (arguments.zip params) with
      hok | ⟨before, ⟨a, raw⟩, after, e, hzip, hbefore, he⟩
    · obtain ⟨args, hargs, passes⟩ := Signature.coerceFrom_of_ok 0 hok
      rw [hargs] at hcoerce
      refine .inr ⟨hlength, args, passes.length_eq hlength, ?_, ?_, ?_, ?_, ?_⟩
      · exact fun i a raw ha hraw => passes.getElem? ha hraw
      · rw [passes.map_representation hlength, Signature.representations, hfields]
      · exact fun x hx => passes.isFinite hlength hx
      · exact fun body hbody => eval_of_body hcoerce hbody
      · exact fun hbody => eval_of_noBody hcoerce hbody
    · rw [Signature.coerceFrom_of_error 0 hzip hbefore he, Nat.zero_add] at hcoerce
      exact .inl ⟨hlength, before.length, a, e, Signature.firstRefused_of_split hzip hbefore he,
        eval_of_error hcoerce⟩
  · have hcoerce := Signature.coerce_of_length_ne (s := f.signature) (harity.symm ▸ hlength)
    rw [harity] at hcoerce
    exact .inl ⟨hlength, eval_of_error hcoerce⟩

/-- Null is no date, so the second of three parameters is the first that is refused: the third, which
would be refused too, is not looked at, and the body is not called. -/
theorem eval_prologue_absentDate :
    ∃ s, Signature.compile [⟨"n", .int⟩, ⟨"when", .datetime⟩, ⟨"on", .boolean⟩] .any = .ok s ∧
      let f : HostFunction :=
        ⟨"shift", "time", s, .ofFunction (.function "time" "shift") ⟨"shift", "time", [], .any⟩ s,
          some fun _ => .ok (.bool true)⟩
      f.eval [.null, .null, .array []] =
        ⟨[f.startEvent], [], .error (.record (.argument 1 "when" ⟨.null, .datetime, none⟩))⟩ := by
  have compiled : Signature.compile [⟨"n", .int⟩, ⟨"when", .datetime⟩, ⟨"on", .boolean⟩] .any =
      .ok ⟨⟨[⟨"n", .int⟩, ⟨"when", .datetime⟩, ⟨"on", .boolean⟩], by decide +kernel⟩, .any⟩ := rfl
  refine ⟨_, compiled, ?_⟩
  intro f
  rcases eval_prologue (f := f) compiled [.null, .null, .array []] with
    ⟨hlength, -⟩ | ⟨-, k, a, e, first, heval⟩ | ⟨-, args, -, htaken, -⟩
  · exact absurd rfl hlength
  · have hdate : Signature.FirstRefused [⟨"n", .int⟩, ⟨"when", .datetime⟩, ⟨"on", .boolean⟩]
        [.null, .null, .array []] 1 ⟨"when", .datetime⟩ ⟨.null, .datetime, none⟩ := by
      refine ⟨rfl, ⟨.null, rfl, rfl⟩, ?_⟩
      intro j hj b raw hb hraw
      obtain rfl : j = 0 := by omega
      obtain rfl := Option.some.inj hb
      obtain rfl := Option.some.inj hraw
      exact ⟨.int64 0, rfl⟩
    obtain ⟨rfl, rfl, rfl⟩ := first.unique hdate
    exact heval
  · obtain ⟨v, -, hv⟩ := htaken 1 ⟨"when", .datetime⟩ .null rfl rfl
    cases hv

end HostFunction

end ExtensionKit
