import ObjectDepot.Json.Reader
import ObjectDepot.Service.Failure

/-!
Request bodies: chunks of bytes as they arrive, and perhaps a read error among them. A body is read
up to one byte more than it may have and then decoded as a whole, so that only its bytes count and
not how they were cut into chunks.
-/

namespace ObjectDepot

inductive Chunk where
  | bytes (bytes : List UInt8)
  | readError (message : String)
  deriving DecidableEq, Repr

abbrev RequestBody := List Chunk

namespace RequestBody

/-- The first bytes of a body, up to a limit. A read error is met only if the limit is not reached
before it. -/
def take (limit : Nat) : RequestBody → Except String (List UInt8)
  | [] => .ok []
  | chunk :: rest =>
    if limit = 0 then .ok []
    else
      match chunk with
      | .readError message => .error message
      | .bytes bytes =>
        let taken := bytes.take limit
        (take (limit - taken.length) rest).map (taken ++ ·)

/-- A size in megabytes, or below one megabyte in kilobytes: whole, or else with two places. The
size counts as a double. -/
def sizeText (bytes : Nat) : String :=
  let (unit, name) := if 1048576 ≤ bytes then (1048576, "MB") else (1024, "KB")
  if bytes % unit = 0 then toString (bytes / unit) ++ " " ++ name
  else
    let (num, den) := ((Magnitude.ofRatio? bytes 1).getD .zero).ratio
    twoPlaces num (den * unit) ++ " " ++ name

def tooLarge (max : Nat) : String :=
  "Request is too large - the maximum is " ++ sizeText max ++ "."

def read {α : Type} (decode : List UInt8 → Except Json.Malformed α) (max : Nat)
    (body : RequestBody) : Except Failure α :=
  match body.take (max + 1) with
  | .error message => .error (.internal (some message))
  | .ok bytes =>
    if bytes.isEmpty then .error (.badRequest ["Missing request body."])
    else if max < bytes.length then .error (.badRequest [tooLarge max])
    else (decode bytes).mapError (fun e => .badRequest [e.message])

def readObject : Nat → RequestBody → Except Failure FieldMap := read Json.readObject

/-- The items of a list are left as they are, so that each can be judged on its own. -/
def readList : Nat → RequestBody → Except Failure (List Json) := read Json.readList

def readValue : Nat → RequestBody → Except Failure Json := read Json.readValue

end RequestBody

end ObjectDepot
