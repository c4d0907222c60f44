import DeviceAccess.Proofs.Policy.Isolation

/-!
# Permissions across services

A request has to name one service in both halves.  Of a permission nothing of the kind is checked: its
operation and its resource are two patterns, and each may start with a service of its own.

Such a permission is useless, and harmless.  A service name is made of letters, so none of its
characters is a wildcard, and neither is the `:` behind it.  Whatever follows, both patterns cover only
what starts with their own service (`Operation.Opens.of_covers`, `ResourcePattern.opens_of_covers`),
and the two services of a request that is covered by both are different.  To grant such a permission
changes no decision (`Permissions.isAuthorized_grant_across`).
-/

namespace DeviceAccess

/-- A text starts with a service and a `:`. -/
def Opens (service text : String) : Prop := ∃ rest, text.toList = service.toList ++ ':' :: rest

theorem opens_append (service rest : String) : Opens service (service ++ ":" ++ rest) :=
  ⟨rest.toList, by simp⟩

/-- A text starts with one service only. -/
theorem Opens.unique {service service' text : String} (hs : ':' ∉ service.toList)
    (hs' : ':' ∉ service'.toList) (h : Opens service text) (h' : Opens service' text) :
    service = service' := by
  obtain ⟨rest, hrest⟩ := h
  obtain ⟨rest', hrest'⟩ := h'
  exact String.toList_injective
    (ResourcePattern.append_separator_inj hs hs' (hrest.symm.trans hrest')).1

theorem eq_append_of_splitAtFirst {sep : Char} {text before after : List Char}
    (h : splitAtFirst sep text = some (before, after)) :
    text = before ++ sep :: after ∧ sep ∉ before := by
  unfold splitAtFirst at h
  split at h
  · cases h
  · next c rest hdrop =>
      obtain ⟨rfl, rfl⟩ := Prod.mk.inj (Option.some.inj h)
      obtain rfl : c = sep := by
        have hhead := List.head?_dropWhile_not (fun c => decide (c ≠ sep)) text
        rw [hdrop] at hhead
        simpa using hhead
      constructor
      · rw [← hdrop]
        exact List.takeWhile_append_dropWhile.symm
      · exact ResourcePattern.not_mem_of_all List.all_takeWhile (by simp)

/-! ### Requests -/

namespace Operation

/-- An operation that can be read starts with its service. -/
theorem opens_of_parse? {operation : String} {op : Operation} (h : parse? operation = some op) :
    Opens op.service operation ∧ ':' ∉ op.service.toList := by
  unfold parse? at h
  split at h
  · cases h
  · next service action hsplit =>
      obtain ⟨htext, hcolon⟩ := eq_append_of_splitAtFirst hsplit
      split at h
      · obtain rfl := Option.some.inj h
        rw [Opens, String.toList_ofList]
        exact ⟨⟨action, htext⟩, hcolon⟩
      · cases h

end Operation

namespace Resource

/-- A resource that can be read starts with its service. -/
theorem opens_of_parse? {resource : String} {res : Resource} (h : parse? resource = some res) :
    Opens res.service resource ∧ ':' ∉ res.service.toList := by
  unfold parse? at h
  obtain ⟨⟨service, rest⟩, hsplit, h⟩ := Option.bind_eq_some_iff.1 h
  obtain ⟨⟨kind, name⟩, -, h⟩ := Option.bind_eq_some_iff.1 h
  obtain ⟨htext, hcolon⟩ := eq_append_of_splitAtFirst hsplit
  simp only at h
  split at h
  · obtain rfl := Option.some.inj h
    rw [Opens, String.toList_ofList]
    exact ⟨⟨rest, htext⟩, hcolon⟩
  · cases h

end Resource

/-- Both halves of a well-formed request start with one service. -/
theorem WellFormedRequest.exists_opens {operation resource : String}
    (h : WellFormedRequest operation resource) :
    ∃ service, ':' ∉ service.toList ∧ Opens service operation ∧ Opens service resource := by
  obtain ⟨op, res, hop, hres, hsame⟩ := h
  obtain ⟨hopens, hcolon⟩ := Operation.opens_of_parse? hop
  exact ⟨op.service, hcolon, hopens, hsame ▸ (Resource.opens_of_parse? hres).1⟩

/-! ### What patterns with a service cover -/

/-- A pattern covers only operations that start with what it starts with, up to a `*` at its end. -/
theorem Operation.isPrefix_of_covers {granted requested : String} {plain : List Char}
    (hgranted : plain <+: granted.toList) (hstar : plain.getLast? ≠ some '*')
    (h : covers granted requested = true) : plain <+: requested.toList := by
  unfold covers at h
  simp only at h
  split at h
  · next hend =>
      obtain ⟨rest, hrest⟩ := hgranted
      -- the `*` at the end is not one of the plain characters, so they are left when it is dropped
      have hne : rest ≠ [] := by
        rintro rfl
        rw [List.append_nil] at hrest
        exact hstar (hrest ▸ hend)
      refine List.IsPrefix.trans ?_ (List.isPrefixOf_iff_prefix.1 h)
      rw [← hrest, List.dropLast_append_of_ne_nil hne]
      exact List.prefix_append ..
  · exact of_decide_eq_true h ▸ hgranted

/-- A pattern that starts with characters without a meaning, none of them a `/`, covers only what
starts with them. -/
theorem ResourcePattern.isPrefix_of_covers {pattern requested : String} {plain : List Char}
    (hpattern : plain <+: pattern.toList) (hplain : IsPlain plain) (hslash : '/' ∉ plain)
    (h : covers pattern requested = true) : plain <+: requested.toList := by
  obtain ⟨rest, hrest⟩ := hpattern
  rw [covers_iff_fits, tokens, ← hrest, tokensAfter_plain_append hplain,
    fits_map_char_append_iff hslash] at h
  obtain ⟨rest', hrequested, -⟩ := h
  exact ⟨rest', hrequested.symm⟩

theorem opens_iff_isPrefix {service text : String} :
    Opens service text ↔ service.toList ++ [':'] <+: text.toList := by
  unfold Opens List.IsPrefix
  simp only [List.append_assoc, List.cons_append, List.nil_append, eq_comm]

/-- A pattern that starts with a service covers operations of this service only. -/
theorem Operation.opens_of_covers {service granted requested : String} (hgranted : Opens service granted)
    (h : covers granted requested = true) : Opens service requested := by
  rw [opens_iff_isPrefix] at hgranted ⊢
  exact isPrefix_of_covers hgranted (by simp) h

/-- A pattern that starts with a service covers resources of this service only. -/
theorem ResourcePattern.opens_of_covers {service pattern requested : String}
    (hs : service.toList.all Text.isLetter = true) (hpattern : Opens service pattern)
    (h : covers pattern requested = true) : Opens service requested := by
  have hall : (service.toList ++ [':']).all (fun c => Text.isLetter c || c == ':') = true := by
    simp only [List.all_append, Bool.and_eq_true, List.all_eq_true] at hs ⊢
    exact ⟨fun c hc => by simp [hs c hc], by simp⟩
  rw [opens_iff_isPrefix] at hpattern ⊢
  exact isPrefix_of_covers hpattern (isPlain_of_all hall (by decide) (by decide) (by decide))
    (not_mem_of_all hall (by decide)) h

/-! ### Permissions across services -/

namespace Permission

variable {p : Permission} {service service' operation resource : String}

/-- A permission on a resource of another service than its operation covers no request. -/
theorem covers_across (hs : isServiceName service.toList = true)
    (hs' : isServiceName service'.toList = true) (hne : service ≠ service')
    (hoperation : Opens service p.operation) (hresource : Opens service' p.resource)
    (hrequest : WellFormedRequest operation resource) : p.covers operation resource = false := by
  have hletters : service.toList.all Text.isLetter = true := (Bool.and_eq_true_iff.1 hs).2
  have hletters' : service'.toList.all Text.isLetter = true := (Bool.and_eq_true_iff.1 hs').2
  obtain ⟨requested, hcolon, hop, hres⟩ := hrequest.exists_opens
  rw [← Bool.not_eq_true, covers, Bool.and_eq_true]
  rintro ⟨hcoversOp, hcoversRes⟩
  have hfirst : service = requested :=
    (Operation.opens_of_covers hoperation hcoversOp).unique
      (PolicyVariable.isPlainName_of_isLetter hletters).1.2 hcolon hop
  have hsecond : service' = requested :=
    (ResourcePattern.opens_of_covers hletters' hresource hcoversRes).unique
      (PolicyVariable.isPlainName_of_isLetter hletters').1.2 hcolon hres
  exact hne (hfirst.trans hsecond.symm)

/-- Variables behind the service do not change it. -/
theorem opens_resource_resolve (hs : service.toList.all Text.isLetter = true)
    (h : Opens service p.resource) (session : Session) : Opens service (p.resolve session).resource := by
  unfold resolve
  split
  · exact h
  · obtain ⟨rest, hrest⟩ := h
    have hdollar : '$' ∉ service.toList ++ [':'] := by
      simp [(PolicyVariable.isPlainName_of_isLetter hs).2]
    have htext : p.resource.toList = (service.toList ++ [':']) ++ rest := by simp [hrest]
    refine ⟨PolicyVariable.fill session rest, ?_⟩
    rw [PolicyVariable.toList_substitute, htext, PolicyVariable.fill_append_of_not_mem hdollar]
    simp

end Permission

namespace Permissions

variable {granted : Permissions} {operation resource : String}

/-- The permissions with one more for a group. -/
def grant (granted : Permissions) (group : String) (p : Permission) : Permissions :=
  granted.insert group (((granted.get? group).getD ∅).insert p)

theorem isAuthorized_iff : isAuthorized operation resource granted = true ↔
    WellFormedRequest operation resource ∧ ∃ group permissions,
      granted.get? group = some permissions ∧ ∃ p ∈ permissions, p.covers operation resource = true := by
  unfold isAuthorized
  rw [Bool.and_eq_true, isWellFormedRequest_iff, List.any_eq_true]
  simp only [OrderedMap.mem_values, ← OrderedMap.get?_eq_some_iff, List.any_eq_true,
    OrderedSet.mem_def]
  refine and_congr_right fun _ => ?_
  constructor
  · rintro ⟨permissions, ⟨group, hgroup⟩, hcovers⟩
    exact ⟨group, permissions, hgroup, hcovers⟩
  · rintro ⟨group, permissions, hgroup, hcovers⟩
    exact ⟨permissions, ⟨group, hgroup⟩, hcovers⟩

/-- One more permission grants what it covers, and takes nothing back. -/
theorem isAuthorized_grant_iff (granted : Permissions) (group : String) (p : Permission) :
    isAuthorized operation resource (granted.grant group p) = true ↔
      isAuthorized operation resource granted = true ∨
        (WellFormedRequest operation resource ∧ p.covers operation resource = true) := by
  have hlookup (k : String) : (granted.grant group p).get? k =
      if group = k then some (((granted.get? group).getD ∅).insert p) else granted.get? k :=
    OrderedMap.get?_insert ..
  rw [isAuthorized_iff, isAuthorized_iff, ← and_or_left]
  refine and_congr_right fun _ => ?_
  simp only [hlookup]
  constructor
  · rintro ⟨k, permissions, hk, q, hq, hcovers⟩
    split at hk
    · obtain rfl := Option.some.inj hk
      rcases OrderedSet.mem_insert.1 hq with rfl | hq
      · exact .inr hcovers
      · cases hgroup : granted.get? group with
        | none =>
            rw [hgroup] at hq
            exact absurd hq OrderedSet.not_mem_empty
        | some permissions =>
            rw [hgroup] at hq
            exact .inl ⟨group, permissions, hgroup, q, hq, hcovers⟩
    · exact .inl ⟨k, permissions, hk, q, hq, hcovers⟩
  · rintro (⟨k, permissions, hk, q, hq, hcovers⟩ | hcovers)
    · by_cases hgroup : group = k
      · subst hgroup
        refine ⟨group, _, if_pos rfl, q, OrderedSet.mem_insert.2 (.inr ?_), hcovers⟩
        rw [hk]
        exact hq
      · exact ⟨k, permissions, (if_neg hgroup).trans hk, q, hq, hcovers⟩
    · exact ⟨group, _, if_pos rfl, p, OrderedSet.mem_insert.2 (.inl rfl), hcovers⟩

/-- **A permission across services never grants.**  Let a permission have the operation
`service:action` and the resource `service':rest`, with two different service names and any action and
rest, wildcards and variables included.  To grant it changes no decision, whatever else is granted and
to whom, and neither does it when its variables were filled in for a session. -/
theorem isAuthorized_grant_across {service service' action rest : String} {p : Permission}
    (hs : isServiceName service.toList = true) (hs' : isServiceName service'.toList = true)
    (hne : service ≠ service') (hoperation : p.operation = service ++ ":" ++ action)
    (hresource : p.resource = service' ++ ":" ++ rest) (granted : Permissions)
    (group operation resource : String) :
    isAuthorized operation resource (granted.grant group p) =
        isAuthorized operation resource granted ∧
      ∀ session, isAuthorized operation resource (granted.grant group (p.resolve session)) =
        isAuthorized operation resource granted := by
  have hunchanged (q : Permission) (hop : Opens service q.operation) (hres : Opens service' q.resource) :
      isAuthorized operation resource (granted.grant group q) =
        isAuthorized operation resource granted := by
    rw [Bool.eq_iff_iff, isAuthorized_grant_iff, or_iff_left]
    rintro ⟨hrequest, hcovers⟩
    rw [Permission.covers_across hs hs' hne hop hres hrequest] at hcovers
    cases hcovers
  have hop : Opens service p.operation := hoperation ▸ opens_append service action
  have hres : Opens service' p.resource := hresource ▸ opens_append service' rest
  refine ⟨hunchanged p hop hres, fun session => hunchanged _ ?_ ?_⟩
  · rwa [Permission.operation_resolve]
  · exact Permission.opens_resource_resolve (Bool.and_eq_true_iff.1 hs').2 hres session

/-- All operations of one service on all resources of another grant nothing, where a permission on
resources of the same service does. -/
theorem isAuthorized_grant_across_shadow :
    let across : Permission := .ofPolicy "sensors" "mqtt:*" "shadow:#"
    let within : Permission := .ofPolicy "sensors" "mqtt:*" "mqtt:#"
    let granted : Permissions := OrderedMap.ofList [("sensors", ∅)]
    isServiceName "mqtt".toList = true ∧ isServiceName "shadow".toList = true ∧ "mqtt" ≠ "shadow" ∧
      isAuthorized "mqtt:publish" "mqtt:topic:a" (granted.grant "sensors" across) = false ∧
      isAuthorized "mqtt:publish" "mqtt:topic:a" (granted.grant "sensors" within) = true := by
  intro across within granted
  refine ⟨by decide, by decide, by decide, ?_, by decide +kernel⟩
  have hop : across.operation = "mqtt" ++ ":" ++ "*" := rfl
  have hres : across.resource = "shadow" ++ ":" ++ "#" := rfl
  rw [(isAuthorized_grant_across (by decide) (by decide) (by decide) hop hres granted "sensors"
    "mqtt:publish" "mqtt:topic:a").1]
  decide +kernel

end Permissions

end DeviceAccess
