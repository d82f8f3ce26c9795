import RouteFleet.Fields
import RouteFleet.Graph.Basic
import RouteFleet.Yaml.Node

/-! # Graphs as YAML documents

`Graph.toValue` says how a graph is written: the managed fields in their order, those that are not
there left out, and then what stands beside them. `Graph.ofNode?` reads a graph. Texts of routers
and services may be written as any scalar, whose text is then taken; a middleware is read as a value
first, and in the bodies of the managed kinds a text must be a text.
-/

namespace RouteFleet

open Yaml

/-! ## Writing -/

/-- A field that is there. -/
def field (key : String) (v : Value) : List (Value × Value) := [(.string key, v)]

/-- A field that may not be there. -/
def fieldIfAny (key : String) : Option Value → List (Value × Value)
  | some v => field key v
  | none => []

/-- A list of texts. -/
def textList (l : List String) : Value := .sequence (l.map .string)

/-- A dictionary, key by key. -/
def dictValue {α : Type} (write : α → Value) (d : Dict α) : Value :=
  .mapping (d.entries.map fun e => (.string e.1, write e.2))

/-- A field for a dictionary that is not empty. -/
def dictField {α : Type} (key : String) (write : α → Value) (d : Dict α) : List (Value × Value) :=
  if d.isEmpty then [] else field key (dictValue write d)

/-- What stands beside the managed fields. -/
def extraFields (e : Extra) : List (Value × Value) := e.entries.map fun f => (.string f.1, f.2)

/-- A whole number. -/
def natValue (n : Nat) : Value := .number (.integer n)

/-- Writes a TLS block. -/
def RouterTls.toValue (t : RouterTls) : Value :=
  .mapping (fieldIfAny "certResolver" (t.certResolver.map .string) ++ extraFields t.extra)

/-- Writes a router. -/
def Router.toValue (r : Router) : Value :=
  .mapping (fieldIfAny "entryPoints" (r.entryPoints.map textList) ++
    field "rule" (.string r.rule) ++
    fieldIfAny "service" (r.service.map .string) ++
    fieldIfAny "tls" (r.tls.map RouterTls.toValue) ++
    fieldIfAny "middlewares" (r.middlewares.map textList) ++
    extraFields r.extra)

/-- Writes a server. -/
def Server.toValue (s : Server) : Value :=
  .mapping (field "url" (.string s.url) ++ extraFields s.extra)

/-- Writes a load balancer. -/
def LoadBalancer.toValue (b : LoadBalancer) : Value :=
  .mapping (fieldIfAny "servers" (b.servers.map fun l => .sequence (l.map Server.toValue)) ++
    extraFields b.extra)

/-- Writes a service. -/
def Service.toValue (s : Service) : Value :=
  .mapping (fieldIfAny "loadBalancer" (s.loadBalancer.map LoadBalancer.toValue) ++
    extraFields s.extra)

/-- Writes the body of a redirection. -/
def RedirectScheme.toValue (m : RedirectScheme) : Value :=
  .mapping (field "scheme" (.string m.scheme) ++
    fieldIfAny "permanent" (m.permanent.map .bool) ++ extraFields m.extra)

/-- Writes the body of a middleware that adds headers. -/
def Headers.toValue (m : Headers) : Value :=
  .mapping (fieldIfAny "customRequestHeaders" (m.customRequestHeaders.map (dictValue .string)) ++
    fieldIfAny "stsSeconds" (m.stsSeconds.map fun n => natValue n.toNat) ++ extraFields m.extra)

/-- Writes the body of a users' middleware. -/
def BasicAuth.toValue (m : BasicAuth) : Value :=
  .mapping (fieldIfAny "users" (m.users.map textList) ++ extraFields m.extra)

/-- Writes which address is the client's. -/
def IpStrategy.toValue (s : IpStrategy) : Value :=
  .mapping (fieldIfAny "depth" (s.depth.map fun n => natValue n.toNat) ++ extraFields s.extra)

/-- Writes the body of an address list. -/
def IpWhiteList.toValue (m : IpWhiteList) : Value :=
  .mapping (fieldIfAny "sourceRange" (m.sourceRange.map textList) ++
    fieldIfAny "ipStrategy" (m.ipStrategy.map IpStrategy.toValue) ++ extraFields m.extra)

/-- Writes the body of a middleware that asks another server. -/
def ForwardAuth.toValue (m : ForwardAuth) : Value :=
  .mapping (field "address" (.string m.address) ++ extraFields m.extra)

/-- Writes a middleware. -/
def Middleware.toValue : Middleware → Value
  | .redirectScheme m => .mapping (field "redirectScheme" m.toValue)
  | .headers m => .mapping (field "headers" m.toValue)
  | .basicAuth m => .mapping (field "basicAuth" m.toValue)
  | .ipWhiteList m => .mapping (field "ipWhiteList" m.toValue)
  | .forwardAuth m => .mapping (field "forwardAuth" m.toValue)
  | .other entries => .mapping entries

/-- Writes a section. -/
def HttpSection.toValue (s : HttpSection) : Value :=
  .mapping (dictField "routers" Router.toValue s.routers ++
    dictField "services" Service.toValue s.services ++
    dictField "middlewares" Middleware.toValue s.middlewares ++
    extraFields s.extra)

/-- Writes a graph. A section with nothing in it is left out. -/
def Graph.toValue (g : Graph) : Value :=
  .mapping ((if g.http.isEmpty then [] else field "http" g.http.toValue) ++ extraFields g.extra)

/-! ## Reading nodes -/

/-- The text of a scalar, however it is written. -/
def nodeText? : Node → Option String
  | .scalar _ _ s => some s
  | _ => none

/-- Whether nothing is written. -/
def isBlankNode : Node → Bool
  | .scalar _ plain s => plain && s == ""
  | _ => false

/-- The parts of a sequence; nothing written is an empty one. -/
def nodeItems? : Node → Option (List Node)
  | .sequence _ items => some items
  | n => if isBlankNode n then some [] else none

/-- The entries of a mapping; nothing written is an empty one. -/
def nodeEntries? : Node → Option (List (Node × Node))
  | .mapping _ entries => some entries
  | n => if isBlankNode n then some [] else none

/-- The fields of a structure or dictionary, whose keys must be scalars. -/
def nodeFields? (n : Node) : Option (List (String × Node)) := do
  (← nodeEntries? n).mapM fun e => (nodeText? e.1).map (·, e.2)

/-- A node, or nothing where the null is written. -/
def nodeIfAny? : Node → Option (Option Node)
  | .scalar tag true s =>
    match tag with
    | none => some (if s = "" || Meaning.isNull s then none else some (.scalar tag true s))
    | some "tag:yaml.org,2002:null" => if Meaning.isNull s then some none else none
    | some _ => some (some (.scalar tag true s))
  | n => some (some n)

/-- A field that may not be there, or be null. -/
def nodeField? {α : Type} (read : Node → Option α) : Option Node → Option (Option α)
  | none => some none
  | some n =>
    match nodeIfAny? n with
    | none => none
    | some none => some none
    | some (some n) => (read n).map some

/-- A list of texts. -/
def nodeTexts? (n : Node) : Option (List String) := (nodeItems? n).bind (·.mapM nodeText?)

/-- The fields that are not managed, as values. Of several with one key the last stays. -/
def nodeExtra? (known : List String) (fields : List (String × Node)) : Option Extra :=
  let value? (f : String × Node) : Option (String × Value) := (f.2.toValue? false).map (f.1, ·)
  ((otherFields known fields).mapM value?).map Dict.ofList

/-- A dictionary. Of several entries with one key the last stays. -/
def nodeDict? {α : Type} (read : Node → Option α) (n : Node) : Option (Dict α) := do
  let fields ← nodeFields? n
  return Dict.ofList (← fields.mapM fun f => (read f.2).map (f.1, ·))

/-- A field for a dictionary, empty where it is not there. -/
def nodeDictField? {α : Type} (read : Node → Option α) : Option Node → Option (Dict α)
  | none => some .empty
  | some n => nodeDict? read n

/-- Reads a TLS block. -/
def RouterTls.ofNode? (n : Node) : Option RouterTls := do
  let fields ← nodeFields? n
  return {
    certResolver := ← nodeField? nodeText? (← uniqueField? fields "certResolver")
    extra := ← nodeExtra? ["certResolver"] fields }

/-- Reads a router. -/
def Router.ofNode? (n : Node) : Option Router := do
  let fields ← nodeFields? n
  return {
    entryPoints := ← nodeField? nodeTexts? (← uniqueField? fields "entryPoints")
    rule := ← required nodeText? (← uniqueField? fields "rule")
    service := ← nodeField? nodeText? (← uniqueField? fields "service")
    tls := ← nodeField? RouterTls.ofNode? (← uniqueField? fields "tls")
    middlewares := ← nodeField? nodeTexts? (← uniqueField? fields "middlewares")
    extra := ← nodeExtra? ["entryPoints", "rule", "service", "tls", "middlewares"] fields }

/-- Reads a server. -/
def Server.ofNode? (n : Node) : Option Server := do
  let fields ← nodeFields? n
  return {
    url := ← required nodeText? (← uniqueField? fields "url")
    extra := ← nodeExtra? ["url"] fields }

/-- Reads a load balancer. -/
def LoadBalancer.ofNode? (n : Node) : Option LoadBalancer := do
  let fields ← nodeFields? n
  let servers (n : Node) : Option (List Server) := (nodeItems? n).bind (·.mapM Server.ofNode?)
  return {
    servers := ← nodeField? servers (← uniqueField? fields "servers")
    extra := ← nodeExtra? ["servers"] fields }

/-- Reads a service. -/
def Service.ofNode? (n : Node) : Option Service := do
  let fields ← nodeFields? n
  return {
    loadBalancer := ← nodeField? LoadBalancer.ofNode? (← uniqueField? fields "loadBalancer")
    extra := ← nodeExtra? ["loadBalancer"] fields }

/-! ## Reading values -/

/-- The items of a sequence; the null is an empty one. -/
def valueItems? (v : Value) : Option (List Value) :=
  match v.untagged with
  | .sequence items => some items
  | .null => some []
  | _ => none

/-- The entries of a mapping; the null is an empty one. -/
def valueEntries? (v : Value) : Option (List (Value × Value)) :=
  match v.untagged with
  | .mapping entries => some entries
  | .null => some []
  | _ => none

/-- The fields of a structure or dictionary, whose keys must be texts. -/
def valueFields? (v : Value) : Option (List (String × Value)) := do
  (← valueEntries? v).mapM fun e => e.1.text?.map (·, e.2)

/-- A truth value. -/
def valueBool? (v : Value) : Option Bool :=
  match v.untagged with
  | .bool b => some b
  | _ => none

/-- A whole number below a bound. -/
def valueNat? (bound : Nat) (v : Value) : Option Nat :=
  match v.untagged with
  | .number (.integer n) => if 0 ≤ n && n < bound then some n.toNat else none
  | _ => none

/-- A field that may not be there, or be null. -/
def valueField? {α : Type} (read : Value → Option α) : Option Value → Option (Option α)
  | none => some none
  | some .null => some none
  | some v => (read v).map some

/-- A list of texts. -/
def valueTexts? (v : Value) : Option (List String) := (valueItems? v).bind (·.mapM Value.text?)

/-- A dictionary of texts. -/
def valueDict? (v : Value) : Option (Dict String) := do
  let fields ← valueFields? v
  return Dict.ofList (← fields.mapM fun f => f.2.text?.map (f.1, ·))

mutual

/-- Whether a value has a tag somewhere. -/
def hasTag : Value → Bool
  | .tagged _ _ => true
  | .sequence items => itemsHaveTag items
  | .mapping entries => entriesHaveTag entries
  | _ => false

/-- Whether one of the items has a tag somewhere. -/
def itemsHaveTag : List Value → Bool
  | [] => false
  | v :: rest => hasTag v || itemsHaveTag rest

/-- Whether one of the entries has a tag somewhere. -/
def entriesHaveTag : List (Value × Value) → Bool
  | [] => false
  | (k, v) :: rest => hasTag k || hasTag v || entriesHaveTag rest

end

/-- The fields that are not managed; tags are refused. Of several with one key the last stays. -/
def valueExtra? (known : List String) (fields : List (String × Value)) : Option Extra :=
  let others := otherFields known fields
  if others.any (fun f => hasTag f.2) then none else some (Dict.ofList others)

/-- Reads the body of a redirection. -/
def RedirectScheme.ofValue? (v : Value) : Option RedirectScheme := do
  let fields ← valueFields? v
  return {
    scheme := ← required Value.text? (← uniqueField? fields "scheme")
    permanent := ← valueField? valueBool? (← uniqueField? fields "permanent")
    extra := ← valueExtra? ["scheme", "permanent"] fields }

/-- Reads the body of a middleware that adds headers. -/
def Headers.ofValue? (v : Value) : Option Headers := do
  let fields ← valueFields? v
  return {
    customRequestHeaders :=
      ← valueField? valueDict? (← uniqueField? fields "customRequestHeaders")
    stsSeconds :=
      (← valueField? (valueNat? UInt64.size) (← uniqueField? fields "stsSeconds")).map UInt64.ofNat
    extra := ← valueExtra? ["customRequestHeaders", "stsSeconds"] fields }

/-- Reads the body of a users' middleware. -/
def BasicAuth.ofValue? (v : Value) : Option BasicAuth := do
  let fields ← valueFields? v
  return {
    users := ← valueField? valueTexts? (← uniqueField? fields "users")
    extra := ← valueExtra? ["users"] fields }

/-- Reads which address is the client's. -/
def IpStrategy.ofValue? (v : Value) : Option IpStrategy := do
  let fields ← valueFields? v
  return {
    depth := (← valueField? (valueNat? UInt32.size) (← uniqueField? fields "depth")).map UInt32.ofNat
    extra := ← valueExtra? ["depth"] fields }

/-- Reads the body of an address list. -/
def IpWhiteList.ofValue? (v : Value) : Option IpWhiteList := do
  let fields ← valueFields? v
  return {
    sourceRange := ← valueField? valueTexts? (← uniqueField? fields "sourceRange")
    ipStrategy := ← valueField? IpStrategy.ofValue? (← uniqueField? fields "ipStrategy")
    extra := ← valueExtra? ["sourceRange", "ipStrategy"] fields }

/-- Reads the body of a middleware that asks another server. -/
def ForwardAuth.ofValue? (v : Value) : Option ForwardAuth := do
  let fields ← valueFields? v
  return {
    address := ← required Value.text? (← uniqueField? fields "address")
    extra := ← valueExtra? ["address"] fields }

/-- Reads a middleware from its entries: of a managed kind if its only key names one, else any. -/
def Middleware.ofEntries? (entries : List (Value × Value)) : Option Middleware :=
  match entries with
  | [(key, body)] =>
    match key.text? with
    | some "redirectScheme" => (RedirectScheme.ofValue? body).map .redirectScheme
    | some "headers" => (Headers.ofValue? body).map .headers
    | some "basicAuth" => (BasicAuth.ofValue? body).map .basicAuth
    | some "ipWhiteList" => (IpWhiteList.ofValue? body).map .ipWhiteList
    | some "forwardAuth" => (ForwardAuth.ofValue? body).map .forwardAuth
    | _ => some (.other entries)
  | _ => some (.other entries)

/-- Reads a middleware. -/
def Middleware.ofNode? (n : Node) : Option Middleware := do
  let entries ← nodeEntries? n
  Middleware.ofEntries? (← Node.toEntries? true entries)

/-! ## Reading graphs -/

/-- Reads a section. -/
def HttpSection.ofNode? (n : Node) : Option HttpSection := do
  let fields ← nodeFields? n
  return {
    routers := ← nodeDictField? Router.ofNode? (← uniqueField? fields "routers")
    services := ← nodeDictField? Service.ofNode? (← uniqueField? fields "services")
    middlewares := ← nodeDictField? Middleware.ofNode? (← uniqueField? fields "middlewares")
    extra := ← nodeExtra? ["routers", "services", "middlewares"] fields }

/-- Reads a graph. -/
def Graph.ofNode? (n : Node) : Option Graph := do
  let fields ← nodeFields? n
  return {
    http := ← match ← uniqueField? fields "http" with
      | none => some {}
      | some section_ => HttpSection.ofNode? section_
    extra := ← nodeExtra? ["http"] fields }

end RouteFleet
