import RequestBook.Request

/-!
# Sending requests

A transport carries out requests of one service. A table says which
transport stands for which service; a request whose service cannot be told,
or has no transport, is not sent. The dry run is the transport that sends
nothing: it writes a request down as it would go over the wire.
-/

namespace RequestBook

/-- What came of a request. -/
structure Outcome where
  success : Bool
  status : Text
  header : List (Text × Text) := []
  body : Text := []
  deriving DecidableEq, Repr

/-- A way to carry out a request. -/
abbrev Transport := Request → Except RequestError Outcome

/-- Transports by service. -/
structure Transports where
  http : Option Transport := none
  database : Option Transport := none

namespace Transports

/-- The transport of a service. -/
def get? (table : Transports) : Service → Option Transport
  | .http => table.http
  | .database => table.database

/-- The table with a transport for a service, in the place of an earlier one. -/
def insert (table : Transports) (service : Service) (transport : Transport) : Transports :=
  match service with
  | .http => { table with http := some transport }
  | .database => { table with database := some transport }

/-- Carries out a request with the transport of its service. -/
def dispatch (table : Transports) (r : Request) : Except RequestError Outcome :=
  match r.service with
  | .error e => .error e
  | .ok service =>
    match table.get? service with
    | none => .error (.noTransport service)
    | some transport => transport r

end Transports

namespace DryRun

/-- The request line with the full target, the headers, and the body after an
empty line if there is one. -/
def render (r : Request) : Text :=
  let line := r.method ++ [' '] ++ r.target ++ [' '] ++ r.httpVersion ++ ['\n']
  let header := r.header.entries.flatMap fun (name, value) =>
    name ++ ": ".toList ++ value ++ ['\n']
  let body := if r.body.isEmpty then [] else ['\n'] ++ r.body ++ ['\n']
  line ++ header ++ body

/-- Writes the request down. -/
def transport : Transport := fun r =>
  match r.service with
  | .error e => .error e
  | .ok service =>
    .ok { success := true
          status := "dry run (".toList ++ service.label ++ [')']
          header := r.header.entries
          body := render r }

/-- The dry run for every service. -/
def transports : Transports := { http := some transport, database := some transport }

end DryRun

end RequestBook
