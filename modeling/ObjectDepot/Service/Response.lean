import ObjectDepot.Service.Failure

/-!
Answers to requests that succeed, and the form in which answers go out: status, headers and body.
-/

namespace ObjectDepot

inductive Payload where
  | object (fields : FieldMap)
  | objects (list : List FieldMap)
  | empty

structure Response where
  status : Nat
  payload : Payload
  location : Option String := none

namespace Response

def ok (fields : FieldMap) : Response := { status := 200, payload := .object fields }

def okList (list : List FieldMap) : Response := { status := 200, payload := .objects list }

def okEmpty : Response := { status := 200, payload := .empty }

def created (fields : FieldMap) (location : Option String) : Response :=
  { status := 201, payload := .object fields, location := location }

def body? (r : Response) : Option Json :=
  match r.payload with
  | .object fields => some (.ofFields fields)
  | .objects list => some (.arr (list.map .ofFields))
  | .empty => none

def objects (r : Response) : List FieldMap :=
  match r.payload with
  | .objects list => list
  | _ => []

end Response

structure HttpReply where
  status : Nat
  headers : KeyMap String
  body : Option Json

namespace HttpReply

/-- A body is announced by its type. -/
def ofBody (status : Nat) (body : Option Json) : HttpReply where
  status := status
  headers := if body.isSome then KeyMap.ofList [("content-type", "application/json")] else .empty
  body := body

/-- Whether text may stand in a header: of the control characters of ASCII only the tab may. -/
def isHeaderValue (s : String) : Bool :=
  s.toList.all (fun c => c = '\t' || (0x20 ≤ c.val && c.val != 0x7F))

/-- A location that may not stand in a header is left out. -/
def ofResponse (r : Response) : HttpReply :=
  let reply := ofBody r.status r.body?
  match r.location.filter isHeaderValue with
  | some location => { reply with headers := reply.headers.insert "location" location }
  | none => reply

def ofFailure (f : Failure) : HttpReply := ofBody f.status (some f.body.toJson)

end HttpReply

end ObjectDepot
