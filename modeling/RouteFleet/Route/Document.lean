import RouteFleet.Fields
import RouteFleet.Json.Printer
import RouteFleet.Json.Reader
import RouteFleet.Route.Basic

/-! # Routes as JSON documents

The form in which operators submit routes and in which they are shown. Reading is lenient where
forms differ: a field that is not there has its default, a field that nobody knows is passed over,
and each structure may also be written as the list of its fields in order. It is strict about the
fields it knows: each must have its type, and none may be given twice.
-/

namespace RouteFleet

open Json

/-! ## Structures in documents -/

/-- The values of the fields `keys` of a structure, written as an object or as the list of its
fields in order. -/
def structFields? (keys : List String) : Json → Option (List (Option Json))
  | .array items =>
    if items.length ≤ keys.length then
      some (items.map some ++ List.replicate (keys.length - items.length) none)
    else none
  | document => do
    let fields ← document.fields?
    keys.mapM (uniqueField? fields)

/-- A field that has a default where it is not there. -/
def optional {α : Type} (default : α) (read : Json → Option α) : Option Json → Option α
  | none => some default
  | some document => read document

/-- A value or `null`. -/
def nullable {α : Type} (read : Json → Option α) : Json → Option (Option α)
  | .null => some none
  | document => (read document).map some

/-- A list of values. -/
def listOf {α : Type} (read : Json → Option α) (document : Json) : Option (List α) := do
  (← document.items?).mapM read

/-- An integer of 64 bits. -/
def int64? (document : Json) : Option Int64 := do
  let n ← document.integer?
  if Int64.minValue.toInt ≤ n && n ≤ Int64.maxValue.toInt then some (Int64.ofInt n) else none

/-! ## Reading -/

/-- Reads a backend. What it says about its health is not believed. -/
def Backend.ofJson? (document : Json) : Option Backend := do
  match ← structFields? ["url"] document with
  | [url] => return { url := ← required text? url }
  | _ => none

/-- Reads a header. -/
def HeaderEntry.ofJson? (document : Json) : Option HeaderEntry := do
  match ← structFields? ["name", "value"] document with
  | [name, value] => return { name := ← optional "" text? name, value := ← optional "" text? value }
  | _ => none

/-- Reads a credential. -/
def Credential.ofJson? (document : Json) : Option Credential := do
  match ← structFields? ["username", "password"] document with
  | [username, password] =>
    return { username := ← optional "" text? username, password := ← optional "" text? password }
  | _ => none

/-- Reads an address restriction. -/
def IpRestriction.ofJson? (document : Json) : Option IpRestriction := do
  match ← structFields? ["depth", "ips"] document with
  | [depth, ips] =>
    return { depth := ← optional 0 int64? depth, ips := ← optional [] (listOf text?) ips }
  | _ => none

namespace Route

/-- The fields of a route, in order. -/
def fieldNames : List String :=
  ["id", "name", "domain", "backend", "forwardAuth", "https", "forceTLS", "hsts", "headers",
    "basicAuth", "ipRestriction"]

/-- Reads a route. -/
def ofJson? (document : Json) : Option Route := do
  match ← structFields? fieldNames document with
  | [id, name, domain, backend, forwardAuth, https, forceTls, hsts, headers, basicAuth,
      ipRestriction] =>
    return {
      id := (← optional none (nullable text?) id).map RouteId.mk
      name := ← required text? name
      domain := ← required text? domain
      backend := ← required Backend.ofJson? backend
      forwardAuth := ← optional false bool? forwardAuth
      https := ← optional false bool? https
      forceTls := ← optional false bool? forceTls
      hsts := ← optional false bool? hsts
      headers := ← optional [] (listOf HeaderEntry.ofJson?) headers
      basicAuth := ← optional [] (listOf Credential.ofJson?) basicAuth
      ipRestriction := ← optional none (nullable IpRestriction.ofJson?) ipRestriction }
  | _ => none

/-- Reads a route from the text of a document. -/
def ofText? (text : String) : Option Route := (Json.read? text).bind ofJson?

end Route

/-! ## Writing -/

/-- Writes a backend. -/
def Backend.toJson (b : Backend) : Json :=
  .ofFields [("url", .ofText b.url), ("healthy", .bool b.healthy)]

/-- Writes a header. -/
def HeaderEntry.toJson (h : HeaderEntry) : Json :=
  .ofFields [("name", .ofText h.name), ("value", .ofText h.value)]

/-- Writes a credential. -/
def Credential.toJson (c : Credential) : Json :=
  .ofFields [("username", .ofText c.username), ("password", .ofText c.password)]

/-- Writes an address restriction. -/
def IpRestriction.toJson (r : IpRestriction) : Json :=
  .ofFields [("depth", .ofInt r.depth.toInt), ("ips", .array (r.ips.map .ofText))]

namespace Route

/-- Writes a route: all fields, but no identity where there is none. -/
def toJson (r : Route) : Json :=
  .ofFields ((match r.id with
      | some id => [("id", .ofText id.text)]
      | none => []) ++
    [("name", .ofText r.name),
      ("domain", .ofText r.domain),
      ("backend", r.backend.toJson),
      ("forwardAuth", .bool r.forwardAuth),
      ("https", .bool r.https),
      ("forceTLS", .bool r.forceTls),
      ("hsts", .bool r.hsts),
      ("headers", .array (r.headers.map HeaderEntry.toJson)),
      ("basicAuth", .array (r.basicAuth.map Credential.toJson)),
      ("ipRestriction", match r.ipRestriction with
        | some restriction => restriction.toJson
        | none => .null)])

/-- The text in which a route is shown. -/
def toText (r : Route) : String := r.toJson.pretty

end Route

end RouteFleet
