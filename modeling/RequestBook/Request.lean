import RequestBook.Fields

/-!
# Requests

A request is what one section of a document asks to be sent, with or without
its placeholders resolved. Its method says which kind of service answers it,
and where the method does not say so, the scheme of its url does. What is
really asked for is its target: the url with the path segments put behind
the path and the parameters behind the query.
-/

namespace RequestBook

/-- Version of the protocol when a request names none. -/
def defaultHttpVersion : Text := "HTTP/1.1".toList

/-- A named request. -/
structure Request where
  name : Text
  url : Text := []
  method : Text := []
  httpVersion : Text := []
  header : Fields := .empty
  param : Fields := .empty
  pathSegments : List Text := []
  body : Text := []
  deriving DecidableEq

/-- Which kind of service answers a request. -/
inductive Service where
  | http
  | database
  deriving DecidableEq, Repr

/-- What a caller may do wrong with requests. -/
inductive RequestError where
  | notFound (name : Text)
  | unsupportedFormat (extension : Text)
  | unknownService (method url : Text)
  | noTransport (service : Service)
  | transport (reason : Text)
  deriving DecidableEq, Repr

namespace Service

/-- The service as reports name it. -/
def label : Service → Text
  | http => "HTTP".toList
  | database => "DATABASE".toList

/-- Verbs of the web. -/
def httpMethods : List Text :=
  ["GET", "POST", "PUT", "DELETE", "HEAD", "OPTIONS", "PATCH", "CONNECT", "TRACE"].map
    String.toList

/-- Families of database statements. -/
def databaseMethods : List Text := ["DDL", "DML", "DCL", "DQL"].map String.toList

/-- The service that a method belongs to. -/
def ofMethod? (method : Text) : Option Service :=
  if httpMethods.contains method then some .http
  else if databaseMethods.contains method then some .database
  else none

end Service

/-- The error in words. -/
def RequestError.message : RequestError → Text
  | notFound name => "request not found: ".toList ++ name
  | unsupportedFormat extension =>
    "no parser registered for file type '".toList ++ extension ++ ['\'']
  | unknownService method url =>
    "cannot tell the request kind from method '".toList ++ method ++ "' and url '".toList
      ++ url ++ ['\'']
  | noTransport service =>
    "no transport registered for ".toList ++ service.label ++ " requests".toList
  | transport reason => "transport failed: ".toList ++ reason

namespace Request

/-- What a url of the web begins with. -/
def webScheme : Text := "http".toList

/-- The service that answers the request. -/
def service (r : Request) : Except RequestError Service :=
  match Service.ofMethod? r.method with
  | some service => .ok service
  | none =>
    if Text.startsWith webScheme r.url then .ok .http
    else .error (.unknownService r.method r.url)

/-- A path with segments put behind it, after exactly one slash. -/
def pathWith (path : Text) (segments : List Text) : Text :=
  if segments.isEmpty then path
  else
    let slashed := if Text.endsWith ['/'] path then path else path ++ ['/']
    slashed ++ Text.join ['/'] segments

/-- The parameters as a query. -/
def paramQuery (param : Fields) : Text :=
  Text.join ['&'] (param.entries.map fun (key, value) => key ++ ['='] ++ value)

/-- A query with another put behind it. -/
def queryWith (query more : Text) : Text :=
  if query.isEmpty then more
  else if more.isEmpty then query
  else if Text.endsWith ['&'] query then query ++ more
  else query ++ ['&'] ++ more

/-- The url, path segments and parameters in one. -/
def target (r : Request) : Text :=
  let (path, query) := (Text.cut? ['?'] r.url).getD (r.url, [])
  let query := queryWith query (paramQuery r.param)
  let path := pathWith path r.pathSegments
  if query.isEmpty then path else path ++ ['?'] ++ query

end Request

end RequestBook
