import ObjectDepot.Error
import ObjectDepot.Json.Kind
import ObjectDepot.Shape

/-!
Failed requests: their causes, the status and body they are answered with, and how failures of the
layers below turn into them. The details of a backend's failure stay inside.
-/

namespace ObjectDepot

def reasonPhrases : List (Nat × String) := [
  (100, "Continue"), (101, "Switching Protocols"), (102, "Processing"), (103, "Early Hints"),
  (200, "OK"), (201, "Created"), (202, "Accepted"), (203, "Non Authoritative Information"),
  (204, "No Content"), (205, "Reset Content"), (206, "Partial Content"), (207, "Multi-Status"),
  (208, "Already Reported"), (226, "IM Used"),
  (300, "Multiple Choices"), (301, "Moved Permanently"), (302, "Found"), (303, "See Other"),
  (304, "Not Modified"), (305, "Use Proxy"), (307, "Temporary Redirect"),
  (308, "Permanent Redirect"),
  (400, "Bad Request"), (401, "Unauthorized"), (402, "Payment Required"), (403, "Forbidden"),
  (404, "Not Found"), (405, "Method Not Allowed"), (406, "Not Acceptable"),
  (407, "Proxy Authentication Required"), (408, "Request Timeout"), (409, "Conflict"),
  (410, "Gone"), (411, "Length Required"), (412, "Precondition Failed"),
  (413, "Payload Too Large"), (414, "URI Too Long"), (415, "Unsupported Media Type"),
  (416, "Range Not Satisfiable"), (417, "Expectation Failed"), (418, "I'm a teapot"),
  (421, "Misdirected Request"), (422, "Unprocessable Entity"), (423, "Locked"),
  (424, "Failed Dependency"), (425, "Too Early"), (426, "Upgrade Required"),
  (428, "Precondition Required"), (429, "Too Many Requests"),
  (431, "Request Header Fields Too Large"), (451, "Unavailable For Legal Reasons"),
  (500, "Internal Server Error"), (501, "Not Implemented"), (502, "Bad Gateway"),
  (503, "Service Unavailable"), (504, "Gateway Timeout"), (505, "HTTP Version Not Supported"),
  (506, "Variant Also Negotiates"), (507, "Insufficient Storage"), (508, "Loop Detected"),
  (510, "Not Extended"), (511, "Network Authentication Required")]

/-- The phrase of a status code; empty if it has none. -/
def reasonPhrase (status : Nat) : String := (reasonPhrases.lookup status).getD ""

/-- The body of every failed request. -/
structure FailureBody where
  code : Nat
  message : String
  deriving DecidableEq, Repr

namespace FailureBody

/-- Joins the messages; without any, the phrase of the status. -/
def ofMessages (status : Nat) (messages : List String) : FailureBody :=
  ⟨status, if messages.isEmpty then reasonPhrase status else joinMessages messages⟩

def toJson (b : FailureBody) : Json :=
  .ofFields (KeyMap.ofList [("code", .int b.code), ("message", .str b.message)])

def readCode (v : Json) : Except String Nat :=
  (v.asIntegerIn 0 (Nat.pow 2 16 - 1) "u16").map Int.toNat

/-- Reads the two fields in key order; neither may be absent. -/
def ofFields (fields : FieldMap) : Except String FailureBody := do
  let code ← (fields.get? "code").mapM readCode
  let message ← (fields.get? "message").mapM Json.asText
  match code, message with
  | some code, some message => return ⟨code, message⟩
  | none, _ => throw "missing field `code`"
  | some _, none => throw "missing field `message`"

def tooShort (length : Nat) : String :=
  "invalid length " ++ toString length ++ ", expected struct ErrorBody with 2 elements"

def ofJson : Json → Except String FailureBody
  | .obj members => ofFields (KeyMap.ofList members)
  | .arr values => do
    match values with
    | [] => throw (tooShort 0)
    | [code] =>
      let _ ← readCode code
      throw (tooShort 1)
    | code :: message :: more =>
      let body : FailureBody := ⟨← readCode code, ← message.asText⟩
      if more.isEmpty then return body else throw (tooManyValues values)
  | v => .error (v.misfit "struct ErrorBody")

end FailureBody

inductive Failure where
  | badRequest (messages : List String)
  | notFound
  /-- The message is for the caller, if there is one. -/
  | internal (message : Option String)
  deriving DecidableEq, Repr

namespace Failure

def status : Failure → Nat
  | badRequest _ => 400
  | notFound => 404
  | internal _ => 500

def body (f : Failure) : FailureBody :=
  match f with
  | badRequest messages => .ofMessages f.status messages
  | notFound => .ofMessages f.status []
  | internal message => .ofMessages f.status message.toList

/-- How a failure shows itself in diagnostics. -/
def summary : Failure → String
  | badRequest messages => "Bad request: " ++ joinMessages messages
  | notFound => "Not found"
  | internal message => "Internal error: " ++ message.getD "unknown"

def ofValidation : ValidationError → Failure
  | .missingType field => badRequest ["'" ++ field ++ "' is missing"]
  | .unknownType _ => badRequest ["'type' has an invalid format"]
  | .invalidField field _ => badRequest ["'" ++ field ++ "' has an invalid format"]
  | .invalidObject messages => badRequest messages

def ofStorage : StorageError → Failure
  | .notFound _ _ => notFound
  | .alreadyExists _ id => badRequest ["Object '" ++ id ++ "' already exists."]
  | .missingTenant _ => badRequest ["Object is not linked to an app."]
  | .invalidTenant _ => badRequest ["Invalid app."]
  | .invalid e => ofValidation e
  | .unavailable _ _ | .internal _ _ | .serialization _ => internal none

end Failure

end ObjectDepot
