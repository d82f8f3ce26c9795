import RouteFleet.Command.Run
import RouteFleet.Proofs.Fields
import RouteFleet.Proofs.Json.Reader
import RouteFleet.Proofs.Text.Bytes

/-! # Routes that are shown can be submitted

What is written for a route is read as the route, but for the health of its backend, which no form is
believed about (`Route.ofJson?_toJson`). So the text in which a route is shown can be submitted again as it
is (`Session.route_toText`): nothing of a route is lost on the way, whatever characters its texts have,
whatever slots are unused, and whether or not it has an identity or an address restriction.
-/

namespace RouteFleet

open Json

/-! ## Values -/

@[simp] theorem Json.text?_ofText (s : String) : (ofText s).text? = some s := unescape?_escape s

@[simp] theorem Json.bool?_bool (b : Bool) : (Json.bool b).bool? = some b := rfl

theorem Json.fields?_ofFields (fields : List (String × Json)) :
    (ofFields fields).fields? = some fields := by
  refine mapM_map_eq_some fun f _ => ?_
  rw [unescape?_escape]
  rfl

/-- Of fields with distinct keys each is found. -/
theorem uniqueField?_eq_lookup {α : Type} {fields : List (String × α)} (h : (fields.map (·.1)).Nodup)
    (key : String) : uniqueField? fields key = some (List.lookup key fields) := by
  cases hfound : List.lookup key fields with
  | none =>
    rw [List.lookup_eq_none_iff] at hfound
    refine uniqueField?_of_not_mem fun hmem => ?_
    obtain ⟨f, hf, rfl⟩ := List.mem_map.mp hmem
    simpa using hfound f hf
  | some v =>
    obtain ⟨before, after, rfl, -⟩ := List.lookup_eq_some_iff.mp hfound
    exact uniqueField?_of_mem h (List.mem_append_right _ List.mem_cons_self)

/-- Of an object that is written with distinct keys each field is found, whatever others there are. -/
theorem structFields?_ofFields (keys : List String) {fields : List (String × Json)}
    (h : (fields.map (·.1)).Nodup) :
    structFields? keys (ofFields fields) = some (keys.map (List.lookup · fields)) := by
  have hfields : structFields? keys (ofFields fields) =
      (ofFields fields).fields?.bind fun fields => keys.mapM (uniqueField? fields) := rfl
  rw [hfields, fields?_ofFields, Option.bind_some]
  exact mapM_eq_some_map fun key _ => uniqueField?_eq_lookup h key

/-- An object that is written with the fields of a structure in order has all of them. -/
theorem structFields?_zip {keys : List String} {values : List Json} (h : keys.Nodup)
    (hlength : keys.length = values.length) :
    structFields? keys (ofFields (keys.zip values)) = some (values.map some) := by
  rw [structFields?_ofFields, map_lookup_zip h hlength]
  rwa [List.map_fst_zip (Nat.le_of_eq hlength)]

/-- One that is written without the first has all others. -/
theorem structFields?_zip_tail {key : String} {keys : List String} {values : List Json}
    (h : (key :: keys).Nodup) (hlength : keys.length = values.length) :
    structFields? (key :: keys) (ofFields (keys.zip values)) = some (none :: values.map some) := by
  rw [List.nodup_cons] at h
  have hkeys : (keys.zip values).map (·.1) = keys := List.map_fst_zip (Nat.le_of_eq hlength)
  have hmissing : List.lookup key (keys.zip values) = none := by
    rw [List.lookup_eq_none_iff]
    intro f hf
    have hmem : f.1 ∈ keys := hkeys ▸ List.mem_map_of_mem hf
    simpa using fun heq : key = f.1 => h.1 (heq ▸ hmem)
  rw [structFields?_ofFields, List.map_cons, hmissing, map_lookup_zip h.2 hlength]
  rw [hkeys]
  exact h.2

theorem listOf_array {α : Type} {read : Json → Option α} {write : α → Json} {l : List α}
    (h : ∀ x ∈ l, read (write x) = some x) : listOf read (.array (l.map write)) = some l :=
  mapM_map_eq_some h

theorem int64?_ofInt (n : Int64) : int64? (ofInt n.toInt) = some n := by
  have hrange : (decide (Int64.minValue.toInt ≤ n.toInt) &&
      decide (n.toInt ≤ Int64.maxValue.toInt)) = true := by
    rw [Bool.and_eq_true, decide_eq_true_eq, decide_eq_true_eq]
    exact ⟨n.minValue_le_toInt, n.toInt_le⟩
  rw [int64?, integer?_ofInt]
  exact (if_pos hrange).trans (congrArg some (Int64.ofInt_toInt n))

/-! ## Structures -/

section Field

variable {α : Type} (default : α) (read : Json → Option α) (document : Json)

@[simp] theorem required_some : required read (some document) = read document := rfl

@[simp] theorem optional_some : optional default read (some document) = read document := rfl

end Field

theorem nullable_of_ne_null {α : Type} (read : Json → Option α) {document : Json}
    (h : document ≠ .null) : nullable read document = (read document).map some := by
  cases document with
  | null => exact absurd rfl h
  | bool b => rfl
  | number literal => rfl
  | string literal => rfl
  | array items => rfl
  | object fields => rfl

/-- What a backend says about its health is not believed. -/
theorem Backend.ofJson?_toJson (b : Backend) :
    Backend.ofJson? b.toJson = some { b with healthy := false } := by
  rw [ofJson?, toJson, structFields?_ofFields _ (by simp)]
  simp [List.lookup_cons]

theorem HeaderEntry.ofJson?_toJson (h : HeaderEntry) : HeaderEntry.ofJson? h.toJson = some h := by
  rw [ofJson?, toJson, structFields?_ofFields _ (by simp)]
  simp [List.lookup_cons]

theorem Credential.ofJson?_toJson (c : Credential) : Credential.ofJson? c.toJson = some c := by
  rw [ofJson?, toJson, structFields?_ofFields _ (by simp)]
  simp [List.lookup_cons]

theorem IpRestriction.ofJson?_toJson (r : IpRestriction) : IpRestriction.ofJson? r.toJson = some r := by
  rw [ofJson?, toJson, structFields?_ofFields _ (by simp)]
  simp [List.lookup_cons, int64?_ofInt, listOf_array]

namespace Route

/-- What is written for the fields of a route, without its identity. -/
def fieldValues (r : Route) : List Json :=
  [.ofText r.name, .ofText r.domain, r.backend.toJson, .bool r.forwardAuth, .bool r.https,
    .bool r.forceTls, .bool r.hsts, .array (r.headers.map HeaderEntry.toJson),
    .array (r.basicAuth.map Credential.toJson),
    match r.ipRestriction with
      | some restriction => restriction.toJson
      | none => .null]

/-- Of what is written for a route all fields are found, but no identity where there is none. -/
theorem structFields?_toJson (r : Route) : structFields? fieldNames r.toJson =
    some (r.id.map (fun id => ofText id.text) :: r.fieldValues.map some) := by
  have hkeys : fieldNames.Nodup := by decide
  cases hid : r.id with
  | none =>
    have hwritten : r.toJson = ofFields (fieldNames.tail.zip r.fieldValues) := by
      rw [toJson, hid]
      rfl
    rw [hwritten]
    exact @structFields?_zip_tail "id" fieldNames.tail r.fieldValues hkeys rfl
  | some id =>
    have hwritten : r.toJson = ofFields (fieldNames.zip (ofText id.text :: r.fieldValues)) := by
      rw [toJson, hid]
      rfl
    rw [hwritten]
    exact @structFields?_zip fieldNames (ofText id.text :: r.fieldValues) hkeys rfl

/-- What is written for a route is read as the route, with a backend that is not known to be healthy. -/
theorem ofJson?_toJson (r : Route) :
    ofJson? r.toJson = some { r with backend := { r.backend with healthy := false } } := by
  have hid : optional none (nullable text?) (r.id.map fun id => ofText id.text) =
      some (r.id.map RouteId.text) := by
    cases r.id with
    | none => rfl
    | some id =>
      have hne : ofText id.text ≠ .null := nofun
      rw [Option.map_some, optional_some, nullable_of_ne_null text? hne, text?_ofText, Option.map_some,
        Option.map_some]
  have hrestriction : nullable IpRestriction.ofJson? (match r.ipRestriction with
      | some restriction => restriction.toJson
      | none => .null) = some r.ipRestriction := by
    cases r.ipRestriction with
    | none => rfl
    | some restriction =>
      have hne : restriction.toJson ≠ .null := nofun
      exact (nullable_of_ne_null _ hne).trans (congrArg (Option.map some) restriction.ofJson?_toJson)
  have hheaders : listOf HeaderEntry.ofJson? (.array (r.headers.map HeaderEntry.toJson)) =
      some r.headers := listOf_array fun h _ => h.ofJson?_toJson
  have hcredentials : listOf Credential.ofJson? (.array (r.basicAuth.map Credential.toJson)) =
      some r.basicAuth := listOf_array fun c _ => c.ofJson?_toJson
  have hsame : (r.id.map RouteId.text).map RouteId.mk = r.id := by
    cases r.id <;> rfl
  rw [ofJson?, structFields?_toJson, fieldValues]
  simp only [List.map_cons, List.map_nil, Option.bind_eq_bind, Option.bind_some, hid, required_some,
    optional_some, text?_ofText, Backend.ofJson?_toJson, bool?_bool, hheaders, hcredentials,
    hrestriction, hsame]
  rfl

end Route

/-! ## Texts -/

theorem Backend.built_toJson (b : Backend) : Built b.toJson := by
  refine .fields ?_
  rw [List.forall_mem_cons, List.forall_mem_singleton]
  exact ⟨.text b.url, .bool b.healthy⟩

theorem HeaderEntry.built_toJson (h : HeaderEntry) : Built h.toJson := by
  refine .fields ?_
  rw [List.forall_mem_cons, List.forall_mem_singleton]
  exact ⟨.text h.name, .text h.value⟩

theorem Credential.built_toJson (c : Credential) : Built c.toJson := by
  refine .fields ?_
  rw [List.forall_mem_cons, List.forall_mem_singleton]
  exact ⟨.text c.username, .text c.password⟩

theorem IpRestriction.built_toJson (r : IpRestriction) : Built r.toJson := by
  refine .fields ?_
  rw [List.forall_mem_cons, List.forall_mem_singleton]
  exact ⟨.int r.depth.toInt, .array (List.forall_mem_map.mpr fun s _ => .text s)⟩

namespace Route

theorem built_toJson (r : Route) : Built r.toJson := by
  refine .fields (List.forall_mem_append.mpr ⟨?_, ?_⟩)
  · cases r.id with
    | none => exact List.forall_mem_nil _
    | some id => exact List.forall_mem_singleton.mpr (.text id.text)
  · simp only [List.forall_mem_cons]
    refine ⟨.text _, .text _, r.backend.built_toJson, .bool _, .bool _, .bool _, .bool _,
      .array (List.forall_mem_map.mpr fun h _ => h.built_toJson),
      .array (List.forall_mem_map.mpr fun c _ => c.built_toJson), ?_, List.forall_mem_nil _⟩
    cases r.ipRestriction with
    | none => exact .null
    | some restriction => exact restriction.built_toJson

/-- What is written for a route is read as the route, with blanks behind it or without. -/
theorem ofText?_toText (r : Route) {blanks : String} (h : ∀ c ∈ blanks.toList, Token.isSpace c = true) :
    ofText? (r.toText ++ blanks) = some { r with backend := { r.backend with healthy := false } } := by
  rw [ofText?, toText, r.built_toJson.read?_pretty h, Option.bind_some, ofJson?_toJson]

end Route

/-- A file that holds the text in which a route is shown is read as the route, with a backend that is not
known to be healthy. Nothing else of the route is changed, and nothing of the session. -/
theorem Session.route_toText (r : Route) (s : Session) (path blanks : String)
    (hblanks : ∀ c ∈ blanks.toList, Token.isSpace c = true)
    (hfile : s.files.read path = .ok (r.toText ++ blanks).toUTF8) :
    (Session.route path).run.run s =
      (.ok { r with backend := { r.backend with healthy := false } }, s) := by
  have htext : s.files.readText path = .ok (r.toText ++ blanks) := by
    simp only [FileSystem.readText, hfile, bind, Except.bind, Text.fromUTF8?_toUTF8]
  have hroute := r.ofText?_toText hblanks
  have hrun : (Session.route path).run.run s = (_, s) := rfl
  simp only [hrun, htext, hroute]

/-- A route with all kinds of characters in its texts, the least depth, and unused slots. -/
def unrulyRoute : Route where
  id := some ⟨"a\\b"⟩
  name := "\x00\t\x1f \"quoted\" / \\u0041"
  domain := "bücher.example 🦊"
  backend := { url := "", healthy := true }
  forceTls := true
  headers := [{}, { name := "X\n", value := "\r" }]
  basicAuth := [{ username := "\x7f" }]
  ipRestriction := some { depth := Int64.minValue, ips := ["", "\x08\x0c"] }

/-- A session in which a file holds what is shown of the route. -/
def unrulySession : Session where
  files := { entries := [(["route.json"], .file (unrulyRoute.toText ++ "\n").toUTF8)], start := [] }
  tags := []
  hasher := Hasher.marking

theorem Session.route_toText_unrulyRoute : (Session.route "route.json").run.run unrulySession =
    (.ok { unrulyRoute with backend := { url := "" } }, unrulySession) :=
  Session.route_toText unrulyRoute unrulySession "route.json" "\n" (List.all_eq_true.mp (by decide)) rfl

end RouteFleet
