import RouteFleet.Graph.Document
import RouteFleet.Yaml.Alias
import RouteFleet.Yaml.Printer

/-! # The text of stored graphs

A graph is stored as the text of a YAML document. Not every value that stands beside the managed
parts can be written; a graph that holds one that cannot is refused. Reading refuses what is not a
document, or not that of a graph.
-/

namespace RouteFleet

open Yaml

/-! ## What can be written -/

/-- Whether all values beside the managed parts can be written. -/
def Extra.isWritable (e : Extra) : Bool := e.values.all Value.isWritable

/-- Whether a router can be written. -/
def Router.isWritable (r : Router) : Bool :=
  (match r.tls with
    | some tls => Extra.isWritable tls.extra
    | none => true) && Extra.isWritable r.extra

/-- Whether a service can be written. -/
def Service.isWritable (s : Service) : Bool :=
  (match s.loadBalancer with
    | some b => b.serverList.all (fun server => Extra.isWritable server.extra) &&
      Extra.isWritable b.extra
    | none => true) && Extra.isWritable s.extra

/-- Whether a middleware can be written. -/
def Middleware.isWritable : Middleware → Bool
  | .redirectScheme m => Extra.isWritable m.extra
  | .headers m => Extra.isWritable m.extra
  | .basicAuth m => Extra.isWritable m.extra
  | .ipWhiteList m =>
    (match m.ipStrategy with
      | some s => Extra.isWritable s.extra
      | none => true) && Extra.isWritable m.extra
  | .forwardAuth m => Extra.isWritable m.extra
  | .other entries => entries.all fun e => e.1.isWritable && e.2.isWritable

/-- Whether a graph can be written. -/
def Graph.isWritable (g : Graph) : Bool :=
  g.http.routers.values.all Router.isWritable && g.http.services.values.all Service.isWritable &&
    g.http.middlewares.values.all Middleware.isWritable && Extra.isWritable g.http.extra &&
    Extra.isWritable g.extra

/-! ## Writing -/

/-- The text of a graph, if it can be written. -/
def Graph.toText? (g : Graph) : Option String :=
  if g.isWritable then some g.toValue.write else none

/-! ## Reading -/

/-- Reads the text of a graph. -/
def Graph.ofText? (text : String) : Option Graph := (Node.ofText? text).bind Graph.ofNode?

/-- Reads the bytes of a graph, which must spell a text. -/
def Graph.ofBytes? (bytes : ByteArray) : Option Graph :=
  (String.fromUTF8? bytes).bind Graph.ofText?

end RouteFleet
