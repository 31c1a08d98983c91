import ExtensionKit.Generated.FunctionSource
import ExtensionKit.Proofs.Text.Literal
import Mathlib.Data.Bool.AllAny

/-!
# The literals of generated functions

Where a declared text stands in quotes in the source of a function, and what it is read as. The methods
for the name and the category, and the errors of every argument that is coerced, have literals that were
made of the declared texts, and these are read back whatever the texts are. The message at the start of
the evaluation has the name of the function between its quotes as it is. So it is what it should be only
for names of characters that stand for themselves in a format string.

The source is gone through from its start (`HasLiterals`), and each literal is read in place, with all the
source that follows it. The main statement is `literals_functionSource`.
-/

namespace ExtensionKit.Generated

open Text

/-- A literal that source should have: the code right before it, and the text that it stands for. -/
structure Expected where
  /-- the code before the opening quote -/
  code : String
  /-- the text -/
  text : String

/-- Source has the expected literals, one after another, and `rest` somewhere behind the last. Each stands
right after its code, and what follows the opening quote is read as its text, up to where the search for
the next one goes on. -/
inductive HasLiterals : String → List Expected → String → Prop
  | done (before rest : String) : HasLiterals (before ++ rest) [] rest
  | literal (before : String) {e : Expected} {body after : String} {es : List Expected} {rest : String}
      (read : Literal.read .text body.toList = some (e.text.toList, after.toList))
      (next : HasLiterals after es rest) :
      HasLiterals (before ++ (e.code ++ ("\"" ++ body))) (e :: es) rest

namespace HasLiterals

variable {source source' rest before : String} {es es' : List Expected}

/-- Code without expected literals may stand before the others. -/
theorem skip (before : String) (h : HasLiterals source es rest) :
    HasLiterals (before ++ source) es rest := by
  cases h with
  | done more =>
    rw [← String.append_assoc]
    exact .done _ rest
  | literal more read next =>
    rw [← String.append_assoc]
    exact .literal _ read next

/-- **A literal that was made of a text** is found, whatever the text. -/
theorem quote (code text : String) (h : HasLiterals source es rest) :
    HasLiterals (code ++ (Literal.quote text ++ source)) (⟨code, text⟩ :: es) rest := by
  obtain ⟨body, hbody, hread⟩ := Literal.denotes_quote text
  rw [hbody, String.append_assoc, ← String.empty_append (s := code ++ _)]
  exact .literal "" (e := ⟨code, text⟩) (hread source) h

variable {lines : List String}

theorem line (line : String) (h : HasLiterals (textOfLines lines ++ source) es rest) :
    HasLiterals (textOfLines (line :: lines) ++ source) es rest := by
  rw [textOfLines_cons, String.append_assoc, String.append_assoc]
  exact (h.skip "\n").skip line

/-- A line with a literal that was made of a text. -/
theorem quoteLine (code text tail : String) (h : HasLiterals (textOfLines lines ++ source) es rest) :
    HasLiterals (textOfLines ((code ++ Literal.quote text ++ tail) :: lines) ++ source)
      (⟨code, text⟩ :: es) rest := by
  rw [textOfLines_cons]
  simp only [String.append_assoc]
  exact ((h.skip "\n").skip tail).quote code text

end HasLiterals

/-! ## The literals of a function -/

/-- The literal that a method returns. -/
def methodLiteral (method text : String) : Expected :=
  ⟨textOfLines ["    pub fn " ++ method ++ "(&self) -> &'static str \x7b"] ++ "        ", text⟩

/-- The literals of an argument: two errors tell its name, unless it is simply copied. -/
def argumentLiterals (index : Nat) (f : Field) : List Expected :=
  if f.type.argumentCoercion.target = .any then []
  else
    [⟨"            flowgen_core::ContractError::ArgumentCoercion \x7b index: " ++ positionText index ++
        ", argument: ", f.name⟩,
      ⟨"                    field: ", f.name⟩]

/-- The literals of arguments, the first of which has the given index. -/
def argumentsLiterals (index : Nat) (fields : List Field) : List Expected :=
  (fields.zipIdx index).flatMap fun (f, index) => argumentLiterals index f

/-- The text of the message at the start of the evaluation. -/
def startMessage (name : String) : String := "Start of function " ++ name

/-- The code before the text of the message, up to the opening quote. -/
def messageCode : String := "        tracing::debug!(\""

theorem hasLiterals_literalMethodLines (method text : String) {source rest : String} {es : List Expected}
    (h : HasLiterals source es rest) :
    HasLiterals (textOfLines (literalMethodLines method text) ++ source) (methodLiteral method text :: es)
      rest := by
  have hquote := (h.skip (textOfLines ["", "    \x7d", ""])).quote (methodLiteral method text).code text
  simpa only [methodLiteral, literalMethodLines, textOfLines_cons, textOfLines_nil, String.append_assoc,
    String.empty_append, -String.reduceAppend] using hquote

theorem hasLiterals_argumentLines (index : Nat) (f : Field) {source rest : String} {es : List Expected}
    (h : HasLiterals source es rest) :
    HasLiterals (textOfLines (argumentLines index f) ++ source) (argumentLiterals index f ++ es) rest := by
  by_cases hany : f.type.argumentCoercion.target = .any
  · rw [argumentLiterals, if_pos hany]
    exact h.skip _
  · rw [argumentLiterals, if_neg hany, argumentLines, if_neg hany]
    refine .line _ (.line _ (.line _ (.quoteLine _ _ _ ?_)))
    refine .line _ (.line _ (.line _ (.line _ (.quoteLine _ _ _ ?_))))
    exact h.skip _

theorem hasLiterals_argumentsLines (index : Nat) (fields : List Field) (source : String) :
    HasLiterals (textOfLines (argumentsLines index fields) ++ source) (argumentsLiterals index fields)
      "" := by
  induction fields generalizing index with
  | nil =>
    rw [← String.append_empty (s := _ ++ source)]
    exact .done _ ""
  | cons f fields ih =>
    rw [argumentsLines, textOfLines_append, String.append_assoc, argumentsLiterals, List.zipIdx_cons,
      List.flatMap_cons]
    exact hasLiterals_argumentLines index f (ih (index + 1))

/-- There is one message, in which the name stands as it is. -/
theorem textOfLines_prologueLines (name : String) (arity : Nat) :
    ∃ before after, textOfLines (prologueLines name arity) =
      before ++ (messageCode ++ (startMessage name ++ ("\"" ++ after))) := by
  have hopening : "        tracing::debug!(\"Start of function " = messageCode ++ "Start of function " := by
    simp only [messageCode, String.reduceAppend]
  have hclosing : "\");" = "\"" ++ ");" := by simp only [String.reduceAppend]
  have hmessage : startMessage name = "Start of function " ++ name := rfl
  let first := (prologueLines name arity).take 4
  let last := (prologueLines name arity).drop 5
  have hlines : prologueLines name arity =
      first ++ ("        tracing::debug!(\"Start of function " ++ name ++ "\");") :: last := rfl
  refine ⟨textOfLines first, ");" ++ ("\n" ++ textOfLines last), ?_⟩
  rw [congrArg textOfLines hlines, textOfLines_append, textOfLines_cons, hopening, hclosing, hmessage]
  simp only [String.append_assoc]

/-- **Where the literals are**: two before the message, and those of the arguments after it. -/
theorem hasLiterals_functionSource (name category : String) (s : Signature) :
    ∃ closing,
      HasLiterals (functionSource name category s)
        [methodLiteral "name" name, methodLiteral "category" category]
        (messageCode ++ (startMessage name ++ ("\"" ++ closing))) ∧
      HasLiterals closing (argumentsLiterals 0 s.parameters.fields) "" := by
  obtain ⟨before, after, hprologue⟩ := textOfLines_prologueLines name s.arity
  let arguments := textOfLines (argumentsLines 0 s.parameters.fields)
  let ending := textOfLines (useLines (argumentVariables s)) ++ textOfLines (epilogueLines s.result)
  let closing := after ++ (arguments ++ ending)
  let message := messageCode ++ (startMessage name ++ ("\"" ++ closing))
  refine ⟨closing, ?_, (hasLiterals_argumentsLines 0 s.parameters.fields ending).skip after⟩
  have hmessage : HasLiterals (textOfLines (signatureLines s) ++ (before ++ message)) [] message :=
    (HasLiterals.done before message).skip _
  have hmethods := hasLiterals_literalMethodLines "name" name
    (hasLiterals_literalMethodLines "category" category hmessage)
  let typeName := Identifier.functionType name
  have htext : functionSource name category s =
      textOfLines ["pub struct " ++ typeName ++ ";", "", "impl " ++ typeName ++ " \x7b"] ++
        (textOfLines (literalMethodLines "name" name) ++
          (textOfLines (literalMethodLines "category" category) ++
            (textOfLines (signatureLines s) ++ (before ++ message)))) := by
    rw [functionSource, functionLines]
    simp only [textOfLines_append, String.append_assoc, hprologue, message, closing, arguments, ending,
      typeName]
  rw [htext]
  exact hmethods.skip _

theorem toList_startMessage (name : String) :
    (startMessage name).toList = "Start of function ".toList ++ name.toList := String.toList_append ..

theorem toList_closing (closing : String) : ("\"" ++ closing).toList = '"' :: closing.toList := by
  rw [String.toList_append, String.toList_ofList]
  rfl

/-- **The literals of a function.** Those of the name, the category and the arguments are read as the
declared texts, whatever these are. The message at the start ends at its own closing quote and is written
as it should be exactly if every character of the name stands for itself in a format string, which is to
say that there is no quote, no backslash, no brace and no carriage return in it. -/
theorem literals_functionSource (name category : String) (s : Signature) :
    ∃ closing,
      HasLiterals (functionSource name category s)
        [methodLiteral "name" name, methodLiteral "category" category]
        (messageCode ++ (startMessage name ++ ("\"" ++ closing))) ∧
      ((∃ text,
          Literal.read .text (startMessage name ++ ("\"" ++ closing)).toList =
            some (text, closing.toList) ∧
          Literal.formatted? text = some (startMessage name).toList) ↔
        ∀ c ∈ name.toList, Literal.IsPlainInFormat c) ∧
      HasLiterals closing (argumentsLiterals 0 s.parameters.fields) "" := by
  obtain ⟨closing, hbefore, hafter⟩ := hasLiterals_functionSource name category s
  refine ⟨closing, hbefore, ?_, hafter⟩
  have hstart : ∀ c ∈ "Start of function ".toList, Literal.IsPlainInFormat c :=
    List.all_iff_forall_prop.mp (by decide)
  rw [String.toList_append, toList_closing]
  refine (Literal.read_formatted_iff (startMessage name).toList closing.toList).trans ?_
  rw [toList_startMessage, List.forall_mem_append]
  exact and_iff_right hstart

/-- A name with an apostrophe, an accent and a line feed makes the message that it should make. -/
theorem literals_functionSource_accent :
    ∃ closing,
      HasLiterals (functionSource "l'é\nt" "sum" ⟨.empty, .int⟩)
        [methodLiteral "name" "l'é\nt", methodLiteral "category" "sum"]
        (messageCode ++ (startMessage "l'é\nt" ++ ("\"" ++ closing))) ∧
      ∃ text,
        Literal.read .text (startMessage "l'é\nt" ++ ("\"" ++ closing)).toList =
          some (text, closing.toList) ∧
        Literal.formatted? text = some (startMessage "l'é\nt").toList := by
  obtain ⟨closing, hbefore, hmessage, -⟩ := literals_functionSource "l'é\nt" "sum" ⟨.empty, .int⟩
  have hname : ∀ c ∈ "l'é\nt".toList, Literal.IsPlainInFormat c :=
    List.all_iff_forall_prop.mp (by decide)
  exact ⟨closing, hbefore, hmessage.mpr hname⟩

/-- A quote in the name ends the message early, and what comes after it stands outside of the quotes. A
brace is taken for the start of a placeholder, and of two braces one is written. -/
theorem literals_functionSource_broken :
    (∃ closing,
      HasLiterals (functionSource "a\"b" "sum" ⟨.empty, .int⟩)
        [methodLiteral "name" "a\"b", methodLiteral "category" "sum"]
        (messageCode ++ (startMessage "a\"b" ++ ("\"" ++ closing))) ∧
      Literal.read .text (startMessage "a\"b" ++ ("\"" ++ closing)).toList =
        some ((startMessage "a").toList, 'b' :: '"' :: closing.toList)) ∧
    Literal.formatted? (startMessage "\x7ba\x7d").toList = none ∧
    Literal.formatted? (startMessage "\x7b\x7b").toList = some (startMessage "\x7b").toList := by
  refine ⟨?_, ?_, ?_⟩
  · obtain ⟨closing, hbefore, -⟩ := hasLiterals_functionSource "a\"b" "sum" ⟨.empty, .int⟩
    refine ⟨closing, hbefore, ?_⟩
    have hplain : ∀ c ∈ (startMessage "a").toList, Literal.IsPlain c :=
      List.all_iff_forall_prop.mp (by decide)
    have hmessage : (startMessage "a\"b").toList = (startMessage "a").toList ++ ['"', 'b'] := by decide
    rw [String.toList_append, hmessage, toList_closing, List.append_assoc]
    exact Literal.read_of_plain hplain _
  · rw [toList_startMessage, String.toList_ofList, String.toList_ofList]
    decide
  · rw [toList_startMessage, toList_startMessage, String.toList_ofList, String.toList_ofList,
      String.toList_ofList]
    decide

end ExtensionKit.Generated
