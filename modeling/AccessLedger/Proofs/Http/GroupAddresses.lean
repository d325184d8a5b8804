import AccessLedger.Proofs.Http.Authentication
import AccessLedger.Proofs.Http.GroupGate

/-!
# Addresses of groups

A group is shown under a text that may stand in a path and from which its
identifier can be read back.  Such a text has no separators, so a path with it
is split where it was put together (`segments_pathText`), and a request with
that path, whatever stands before and after the path, asks for what is meant to
be done with this group (`group_ids_lead_back`).
-/

namespace AccessLedger

namespace GroupUuid

@[simp]
theorem decode_displayId (u : GroupUuid) :
    Text.Percent.decode u.displayId.toList = some u.text :=
  Text.Percent.decode_encode u.text

theorem displayId_injective {u v : GroupUuid} (h : u.displayId = v.displayId) : u = v := by
  have hdecoded := v.decode_displayId
  rw [← h, decode_displayId, Option.some.injEq] at hdecoded
  cases u
  cases v
  exact congrArg GroupUuid.mk hdecoded

theorem displayId_ne_nil {u : GroupUuid} (h : u.text ≠ "") : u.displayId.toList ≠ [] := by
  intro hempty
  have hdecoded := u.decode_displayId
  rw [hempty] at hdecoded
  exact h (Option.some.inj hdecoded).symm

end GroupUuid

namespace Http

/-! ## Paths -/

/-- The parts of a path, each after a slash. -/
def pathText (parts : List (List Char)) : List Char := parts.flatMap ('/' :: ·)

/-- A part of a path holds no slash and does not end the path. -/
def IsPart (part : List Char) : Prop := ∀ c ∈ part, c ≠ '/' ∧ c ≠ '?' ∧ c ≠ '#'

theorem splitAt_of_not_mem {c : Char} {part : List Char} (h : c ∉ part) :
    splitAt c part = [part] := by
  induction part with
  | nil => rfl
  | cons d part ih =>
    obtain ⟨hd, hpart⟩ := not_or.mp (mt List.mem_cons.mpr h)
    rw [splitAt, if_neg (Ne.symm hd), ih hpart]

theorem splitAt_append_cons {c : Char} {part : List Char} (h : c ∉ part) (rest : List Char) :
    splitAt c (part ++ c :: rest) = part :: splitAt c rest := by
  induction part with
  | nil => rw [List.nil_append, splitAt, if_pos rfl]
  | cons d part ih =>
    obtain ⟨hd, hpart⟩ := not_or.mp (mt List.mem_cons.mpr h)
    rw [List.cons_append, splitAt, if_neg (Ne.symm hd), ih hpart]

/-- A path is split where its parts have been put together. -/
theorem segments_pathText {parts : List (List Char)} (h : ∀ part ∈ parts, IsPart part) :
    segments (pathText parts) = [] :: parts := by
  have hslash : ∀ part ∈ parts, '/' ∉ part := fun part hpart hin => (h part hpart _ hin).1 rfl
  clear h
  have hsplit (part : List Char) (hpart : '/' ∉ part) :
      splitAt '/' (part ++ pathText parts) = part :: parts := by
    induction parts generalizing part with
    | nil =>
      rw [pathText, List.flatMap_nil, List.append_nil]
      exact splitAt_of_not_mem hpart
    | cons next parts ih =>
      obtain ⟨hnext, hparts⟩ := List.forall_mem_cons.mp hslash
      rw [pathText, List.flatMap_cons, List.cons_append, splitAt_append_cons hpart]
      exact congrArg (part :: ·) (ih hparts next hnext)
  exact hsplit [] List.not_mem_nil

/-- What may stand after a path: nothing, a query or a fragment. -/
def IsQuery (cs : List Char) : Prop := ∀ c, cs.head? = some c → c = '?' ∨ c = '#'

/-- A target with a path: an address of a server may precede it, a query may follow. -/
def HasPath (target path : List Char) : Prop :=
  ∃ origin query, IsOrigin origin ∧ IsQuery query ∧ target = origin ++ (path ++ query)

theorem upToQuery_append {path query : List Char} (hpath : ∀ c ∈ path, c ≠ '?' ∧ c ≠ '#')
    (hquery : IsQuery query) : upToQuery (path ++ query) = path := by
  have hnone : query.takeWhile (fun c => c != '?' && c != '#') = [] := by
    cases query with
    | nil => rfl
    | cons c r =>
      rcases hquery c rfl with rfl | rfl <;> rfl
  rw [upToQuery, List.takeWhile_append_of_pos, hnone, List.append_nil]
  intro c hc
  obtain ⟨hmark, hhash⟩ := hpath c hc
  simp [hmark, hhash]

/-- The path of a target is found in it. -/
theorem HasPath.pathOf_eq {target : List Char} {part : List Char} {parts : List (List Char)}
    (h : HasPath target (pathText (part :: parts))) (hparts : ∀ p ∈ part :: parts, IsPart p) :
    pathOf target = pathText (part :: parts) := by
  obtain ⟨origin, query, horigin, hquery, rfl⟩ := h
  have hpath : ∀ c ∈ pathText (part :: parts), c ≠ '?' ∧ c ≠ '#' := by
    intro c hc
    obtain ⟨p, hp, hin⟩ := List.mem_flatMap.mp hc
    rcases List.mem_cons.mp hin with rfl | hin
    · decide
    · exact (hparts p hp c hin).2
  have hbegin : pathText (part :: parts) ++ query =
      '/' :: (part ++ (pathText parts ++ query)) := by
    simp [pathText]
  rw [hbegin, pathOf_origin horigin, ← hbegin, upToQuery_append hpath hquery]

theorem isPart_displayId (u : GroupUuid) : IsPart u.displayId.toList :=
  (Text.Percent.escaped_encode u.text).ne_separator

/-! ## Accounts in paths -/

@[simp]
theorem accountParameter?_display (a : AccountId) :
    accountParameter? a.display.toList = some a := by
  have hle : a.toNat ≤ 4294967295 := Nat.le_of_lt_succ a.value.toNat_lt
  rw [accountParameter?, AccountId.display, String.toList_ofList,
    Text.Percent.decode_digits fun c hc => Text.isDigit_of_mem_digits hc]
  simp only [Option.bind_eq_bind, Option.bind_some, String.toList_ofList, Text.unsigned?_digits hle]
  exact congrArg (some <| AccountId.mk ·) UInt32.ofNat_toNat

theorem isPart_display (a : AccountId) : IsPart a.display.toList := by
  rw [AccountId.display, String.toList_ofList]
  intro c hc
  have hdigit : c.isDigit = true := Text.isDigit_of_mem_digits hc
  refine ⟨?_, ?_, ?_⟩ <;> rintro rfl <;> cases hdigit

/-! ## Requests to a group -/

/--
What is asked for by a method, and by the text that a path has after the
identifier of a group.
-/
inductive GroupEndpoint (u : GroupUuid) : String → String → Task → Prop
  | readLog {method : String} (reads : method = "GET" ∨ method = "HEAD") :
      GroupEndpoint u method "/log.audit" (.readLog u)
  | addMember {raw : String} {account : AccountId} (part : IsPart raw.toList)
      (numbered : accountParameter? raw.toList = some account) :
      GroupEndpoint u "PUT" ("/members/" ++ raw) (.addMember u account)
  | removeMember {raw : String} {account : AccountId} (part : IsPart raw.toList)
      (numbered : accountParameter? raw.toList = some account) :
      GroupEndpoint u "DELETE" ("/members/" ++ raw) (.removeMember u account)
  | addSubgroup {included : GroupUuid} (named : included.text ≠ "") :
      GroupEndpoint u "PUT" ("/groups/" ++ included.displayId) (.addSubgroup u included)
  | removeSubgroup {included : GroupUuid} (named : included.text ≠ "") :
      GroupEndpoint u "DELETE" ("/groups/" ++ included.displayId) (.removeSubgroup u included)

section

variable {u : GroupUuid} {caller : AccountId} {r : Request}

/-- A path below a group is taken apart into the identifier of the group and the rest. -/
theorem segments_of_hasPath {parts : List (List Char)} (hparts : ∀ part ∈ parts, IsPart part)
    (h : HasPath r.target (pathText ("groups".toList :: u.displayId.toList :: parts))) :
    segments (pathOf r.target) = [] :: "groups".toList :: u.displayId.toList :: parts := by
  have hall : ∀ part ∈ "groups".toList :: u.displayId.toList :: parts, IsPart part := by
    refine List.forall_mem_cons.mpr ⟨?_, List.forall_mem_cons.mpr ⟨isPart_displayId u, hparts⟩⟩
    simp [IsPart]
  rw [h.pathOf_eq hall, segments_pathText hall]

theorem route_auditLog
    (h : HasPath r.target ("/groups/" ++ u.displayId ++ "/log.audit").toList) :
    Route.ofPath? (segments (pathOf r.target)) = some (.auditLog u.displayId.toList) := by
  have hpath : ("/groups/" ++ u.displayId ++ "/log.audit").toList =
      pathText ["groups".toList, u.displayId.toList, "log.audit".toList] := by
    simp [pathText]
  rw [hpath] at h
  rw [segments_of_hasPath (by simp [IsPart]) h]
  rfl

/-- The kind of a member stands before it, and decides on the route. -/
theorem segments_below {kind last : String}
    (hkind : IsPart kind.toList) (hlast : IsPart last.toList)
    (h : HasPath r.target ("/groups/" ++ u.displayId ++ ("/" ++ kind ++ "/" ++ last)).toList) :
    segments (pathOf r.target) =
      [[], "groups".toList, u.displayId.toList, kind.toList, last.toList] := by
  have hpath : ("/groups/" ++ u.displayId ++ ("/" ++ kind ++ "/" ++ last)).toList =
      pathText ["groups".toList, u.displayId.toList, kind.toList, last.toList] := by
    simp [pathText]
  rw [hpath] at h
  refine segments_of_hasPath ?_ h
  simp only [List.forall_mem_cons]
  exact ⟨hkind, hlast, nofun⟩

theorem route_member {raw : String} (hraw : raw.toList ≠ []) (hpart : IsPart raw.toList)
    (h : HasPath r.target ("/groups/" ++ u.displayId ++ ("/members/" ++ raw)).toList) :
    Route.ofPath? (segments (pathOf r.target)) =
      some (.member u.displayId.toList raw.toList) := by
  have hkind : IsPart "members".toList := by simp [IsPart]
  rw [segments_below hkind hpart h, Route.ofPath?]
  simp [hraw]

theorem route_subgroup {included : GroupUuid} (hincluded : included.text ≠ "")
    (h : HasPath r.target
      ("/groups/" ++ u.displayId ++ ("/groups/" ++ included.displayId)).toList) :
    Route.ofPath? (segments (pathOf r.target)) =
      some (.subgroup u.displayId.toList included.displayId.toList) := by
  have hkind : IsPart "groups".toList := by simp [IsPart]
  rw [segments_below hkind (isPart_displayId included) h, Route.ofPath?]
  simp [GroupUuid.displayId_ne_nil hincluded]

/-- A request to an endpoint below a group asks for what this endpoint is for. -/
theorem GroupEndpoint.plan_eq {method below : String} {task : Task}
    (h : GroupEndpoint u method below task) (hmethod : r.method = method)
    (hpath : HasPath r.target ("/groups/" ++ u.displayId ++ below).toList) :
    plan (some caller) r = .ok (caller, task) := by
  have hmember {raw : String} {account : AccountId} (hpart : IsPart raw.toList)
      (hnumbered : accountParameter? raw.toList = some account)
      (h : HasPath r.target ("/groups/" ++ u.displayId ++ ("/members/" ++ raw)).toList) :
      Route.ofPath? (segments (pathOf r.target)) =
        some (.member u.displayId.toList raw.toList) := by
    refine route_member (fun hempty => ?_) hpart h
    rw [hempty] at hnumbered
    cases hnumbered
  cases h with
  | readLog reads =>
    have haction : Action.decode? (.readLog u.displayId.toList) = some (.readLog u.text) := by
      simp [Action.decode?]
    rcases reads with rfl | rfl
    · exact plan_of_action hmethod (route_auditLog hpath) rfl haction rfl
    · exact plan_of_action hmethod (route_auditLog hpath) rfl haction rfl
  | @addMember raw account hpart hnumbered =>
    have haction : Action.decode? (.addMember u.displayId.toList raw.toList) =
        some (.addMember u.text account) := by
      simp [Action.decode?, hnumbered]
    exact plan_of_action hmethod (hmember hpart hnumbered hpath) rfl haction rfl
  | @removeMember raw account hpart hnumbered =>
    have haction : Action.decode? (.removeMember u.displayId.toList raw.toList) =
        some (.removeMember u.text account) := by
      simp [Action.decode?, hnumbered]
    exact plan_of_action hmethod (hmember hpart hnumbered hpath) rfl haction rfl
  | @addSubgroup included named =>
    have haction : Action.decode? (.addSubgroup u.displayId.toList included.displayId.toList) =
        some (.addSubgroup u.text included.text) := by
      simp [Action.decode?]
    exact plan_of_action hmethod (route_subgroup named hpath) rfl haction rfl
  | @removeSubgroup included named =>
    have haction : Action.decode? (.removeSubgroup u.displayId.toList included.displayId.toList) =
        some (.removeSubgroup u.text included.text) := by
      simp [Action.decode?]
    exact plan_of_action hmethod (route_subgroup named hpath) rfl haction rfl

end

/--
The text under which a group is shown has unreserved characters and escapes
only, is read back as the identifier of the group, and belongs to no other
group.  In a path it leads to what is to be done with this group, whatever
characters the identifier has; accounts may be given by their numbers.
-/
theorem group_ids_lead_back :
    (∀ u : GroupUuid, Text.Percent.Escaped u.displayId.toList ∧
      Text.Percent.decode u.displayId.toList = some u.text) ∧
    (∀ u v : GroupUuid, u.displayId = v.displayId ↔ u = v) ∧
    (∀ account : AccountId, IsPart account.display.toList ∧
      accountParameter? account.display.toList = some account) ∧
    ∀ (u : GroupUuid) (method below : String) (task : Task), GroupEndpoint u method below task →
      ∀ (caller : AccountId) (r : Request), r.method = method →
        HasPath r.target ("/groups/" ++ u.displayId ++ below).toList →
        plan (some caller) r = .ok (caller, task) := by
  refine ⟨fun u => ⟨Text.Percent.escaped_encode u.text, u.decode_displayId⟩, ?_, ?_, ?_⟩
  · intro u v
    constructor
    · exact GroupUuid.displayId_injective
    · rintro rfl
      rfl
  · intro account
    exact ⟨isPart_display account, accountParameter?_display account⟩
  · intro u method below task h caller r hmethod hpath
    exact h.plan_eq hmethod hpath

/-- An identifier that looks like a path with a query, and already escaped. -/
def trickyGroup : GroupUuid := ⟨"a/b%2F?ü #"⟩

/-- The tricky group is included under its escaped identifier, and a query is passed over. -/
theorem tricky_group_is_included :
    trickyGroup.displayId = "a%2Fb%252F%3F%C3%BC%20%23" ∧
    plan (some ⟨1⟩) ⟨"PUT",
      ("/groups/" ++ trickyGroup.displayId ++ ("/groups/" ++ trickyGroup.displayId)).toList ++
        "?q".toList, none, ""⟩ = .ok (⟨1⟩, .addSubgroup trickyGroup trickyGroup) := by
  obtain ⟨-, -, -, hplan⟩ := group_ids_lead_back
  refine ⟨by decide +kernel, ?_⟩
  refine hplan trickyGroup "PUT" _ _ (.addSubgroup (by decide)) ⟨1⟩ _ rfl ?_
  refine ⟨[], "?q".toList, .none, ?_, rfl⟩
  intro c hc
  cases hc
  exact .inl rfl

end Http

end AccessLedger
