import Tabular.Json.Decode

/-!
# Answers to queries

Every query answers with an envelope, in which "nothing depends on it" and "there is no
such object" can be told apart: a success carries a result, a failure carries the class
of what went wrong and a message. The envelope also says which version of itself it is.
-/

namespace Tabular

open Json

/-- What went wrong, as callers may rely on it. -/
inductive ErrorClass where
  /-- A file or folder could not be read. -/
  | io
  /-- A structured input could not be decoded. -/
  | parse
  /-- There is no such object. -/
  | notFound
  /-- The request makes no sense. -/
  | invalidInput
  /-- The settings could not be loaded. -/
  | config
  deriving DecidableEq, Inhabited, Repr

/-- The version of the envelope. -/
structure ResponseVersion where
  major : Nat
  minor : Nat
  deriving DecidableEq, Inhabited, Repr

/-- The answer to a query. -/
structure Response (α : Type) where
  version : ResponseVersion
  success : Bool
  result : Option α := none
  errorClass : Option ErrorClass := none
  message : Option String := none
  deriving Inhabited

namespace ErrorClass

/-- The stable name of a class. -/
def text : ErrorClass → String
  | .io => "io_error"
  | .parse => "parse_error"
  | .notFound => "not_found"
  | .invalidInput => "invalid_input"
  | .config => "config_error"

/-- The classes with their stable names. -/
def names : List (String × ErrorClass) :=
  [("io_error", .io), ("parse_error", .parse), ("not_found", .notFound),
   ("invalid_input", .invalidInput), ("config_error", .config)]

/-- A class is found under its name. -/
theorem lookup_text (c : ErrorClass) : names.lookup c.text = some c := by cases c <;> rfl

end ErrorClass

namespace ResponseVersion

/-- The version that answers are given in. -/
def current : ResponseVersion := ⟨1, 0⟩

/-- A version as `major.minor`. -/
def text (v : ResponseVersion) : String := toString v.major ++ "." ++ toString v.minor

/-- A version as a value. -/
def encode (v : ResponseVersion) : Value :=
  .obj [("major", .nat v.major), ("minor", .nat v.minor)]

/-- The version that a value spells. -/
def decode : Decoder ResponseVersion := fun v => do
  let r ← Record.read? [.needed "major", .needed "minor"] v
  return {
    major := ← r.required "major" Decode.word32
    minor := ← r.required "minor" Decode.word32 }

end ResponseVersion

namespace Response

variable {α β : Type}

/-- The answer with a result. -/
def ok (result : α) : Response α :=
  { version := .current, success := true, result := some result }

/-- The answer that something went wrong. -/
def failure (errorClass : ErrorClass) (message : String) : Response α :=
  { version := .current, success := false, errorClass := some errorClass,
    message := some message }

/-- The result, if the answer is a success that has one, or what went wrong. -/
def toExcept (r : Response α) : Except (ErrorClass × String) α :=
  match r.result, r.success with
  | some result, true => .ok result
  | _, _ => .error (r.errorClass.getD .invalidInput, r.message.getD "")

/-- The same answer with another result. -/
def map (f : α → β) (r : Response α) : Response β :=
  { version := r.version, success := r.success, result := r.result.map f,
    errorClass := r.errorClass, message := r.message }

/-- The answer to a computation that may go wrong. -/
def ofExcept : Except (ErrorClass × String) α → Response α
  | .ok result => ok result
  | .error (errorClass, message) => failure errorClass message

theorem toExcept_ofExcept (e : Except (ErrorClass × String) α) :
    (ofExcept e).toExcept = e := by
  rcases e with ⟨_, _⟩ | _ <;> rfl

/-- An answer as a value; what it does not have is left out. -/
def encode (encodeResult : α → Value) (r : Response α) : Value :=
  let entry {γ : Type} (name : String) (encode : γ → Value) (x : Option γ) :=
    match x with
    | none => []
    | some x => [(name, encode x)]
  .obj ([("version", r.version.encode), ("success", .bool r.success)]
    ++ entry "result" encodeResult r.result
    ++ entry "error_type" (fun c => Value.str c.text) r.errorClass
    ++ entry "message" .str r.message)

/-- The answer that a value spells. -/
def decode (decodeResult : Decoder α) : Decoder (Response α) := fun v => do
  let r ← Record.read? [.needed "version", .needed "success",
    .needed "result", .needed "error_type", .needed "message"] v
  return {
    version := ← r.required "version" ResponseVersion.decode
    success := ← r.required "success" Decode.bool
    result := ← r.optional "result" decodeResult
    errorClass := ← r.optional "error_type" (Decode.word ErrorClass.names)
    message := ← r.optional "message" Decode.string }

end Response

end Tabular
