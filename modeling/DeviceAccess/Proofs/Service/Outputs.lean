import DeviceAccess.Proofs.Gateway.Supply
import DeviceAccess.Proofs.Service.Runs

/-!
# Where the bundles of a running service go

Settings list outputs, each with a name and a place; a subscription is known by its name alone, so of
several outputs under one name the last one counts (`lastPlace?`).  A started service sends the bundles
of each name to the last place that its settings list for it.

A reload compares the outputs with those before as a set of pairs of name and place.  It gives up the
names of all pairs that are gone, and then subscribes the pairs that are new (`placesBetween`).  This
comes to the last places of the new settings exactly if for each name the last pair is new, or its pairs
are the same as before and so is the last one (`PlacesFollow`).  If no settings have two places under one
name, this is always so (`placesFollow_of_single`); otherwise an output that stays listed can lose its
subscription along with another one that goes.
-/

namespace DeviceAccess

/-- The name and the place of an output. -/
def CertificateOutput.entry (o : CertificateOutput) : SubscriptionKey × Place :=
  (o.key, .directory o.directory.components)

/-- The names and places that settings list. -/
def Settings.entries (settings : Settings) : List (SubscriptionKey × Place) :=
  settings.outputs.map CertificateOutput.entry

/-- The last place that a list has for a name. -/
def lastPlace? : List (SubscriptionKey × Place) → SubscriptionKey → Option Place
  | [], _ => none
  | e :: es, key => (lastPlace? es key).or (if e.1 = key then some e.2 else none)

/-- The places after the names of what is gone from a list were given up and what is new was
subscribed. -/
def placesBetween (old new : List (SubscriptionKey × Place))
    (places : SubscriptionKey → Option Place) (key : SubscriptionKey) : Option Place :=
  (lastPlace? (new.filter fun e => e ∉ old) key).or
    (if ∃ e ∈ old.filter fun e => e ∉ new, e.1 = key then none else places key)

/-- For each name the last place is new, or the places are the same as before and so is the last one. -/
def PlacesFollow (old new : List (SubscriptionKey × Place)) : Prop :=
  ∀ key place, lastPlace? new key = some place → (key, place) ∉ old ∨
    ((∀ p, (key, p) ∈ old ↔ (key, p) ∈ new) ∧ lastPlace? old key = some place)

/-- No name has two places. -/
def SinglePlaced (es : List (SubscriptionKey × Place)) : Prop :=
  ∀ e ∈ es, ∀ e' ∈ es, e.1 = e'.1 → e.2 = e'.2

instance (es : List (SubscriptionKey × Place)) : Decidable (SinglePlaced es) :=
  inferInstanceAs (Decidable (∀ e ∈ es, ∀ e' ∈ es, e.1 = e'.1 → e.2 = e'.2))

section
variable {es old new : List (SubscriptionKey × Place)} {key : SubscriptionKey} {place : Place}
  {p : SubscriptionKey × Place → Bool}

/-! ### Last places -/

theorem lastPlace?_cons_eq_some_iff {e : SubscriptionKey × Place} :
    lastPlace? (e :: es) key = some place ↔
      lastPlace? es key = some place ∨ lastPlace? es key = none ∧ e = (key, place) := by
  obtain ⟨name, q⟩ := e
  rw [lastPlace?, Option.or_eq_some_iff, Option.ite_none_right_eq_some, Prod.mk.injEq,
    Option.some.injEq]

theorem lastPlace?_eq_none_iff : lastPlace? es key = none ↔ ∀ place, (key, place) ∉ es := by
  induction es with
  | nil => exact ⟨fun _ _ => List.not_mem_nil, fun _ => rfl⟩
  | cons e es ih =>
      obtain ⟨name, q⟩ := e
      rw [lastPlace?, Option.or_eq_none_iff, ih]
      simp only [List.mem_cons, Prod.mk.injEq, not_or]
      constructor
      · rintro ⟨hes, he⟩ place
        refine ⟨?_, hes place⟩
        rintro ⟨rfl, -⟩
        rw [if_pos rfl] at he
        cases he
      · intro h
        refine ⟨fun place => (h place).2, if_neg ?_⟩
        rintro rfl
        exact (h q).1 ⟨rfl, rfl⟩

theorem mem_of_lastPlace? (h : lastPlace? es key = some place) : (key, place) ∈ es := by
  induction es with
  | nil => cases h
  | cons e es ih =>
      rcases lastPlace?_cons_eq_some_iff.1 h with h | ⟨-, rfl⟩
      · exact List.mem_cons_of_mem e (ih h)
      · exact List.mem_cons_self

/-- The last place stays the last one when others are left out. -/
theorem lastPlace?_filter (h : lastPlace? es key = some place) (hp : p (key, place) = true) :
    lastPlace? (es.filter p) key = some place := by
  induction es with
  | nil => cases h
  | cons e es ih =>
      rw [List.filter_cons]
      rcases lastPlace?_cons_eq_some_iff.1 h with h | ⟨hnone, rfl⟩
      · split
        · exact lastPlace?_cons_eq_some_iff.2 (.inl (ih h))
        · exact ih h
      · rw [if_pos hp]
        refine lastPlace?_cons_eq_some_iff.2 (.inr ⟨lastPlace?_eq_none_iff.2 fun q hq => ?_, rfl⟩)
        exact lastPlace?_eq_none_iff.1 hnone q (List.mem_of_mem_filter hq)

/-! ### Places after a reload -/

/-- No place of a name is new. -/
theorem lastPlace?_new_eq_none_iff :
    lastPlace? (new.filter fun e => e ∉ old) key = none ↔
      ∀ q, (key, q) ∈ new → (key, q) ∈ old := by
  rw [lastPlace?_eq_none_iff]
  simp [List.mem_filter]

/-- No place of a name is gone. -/
theorem not_exists_gone_iff :
    (¬∃ e ∈ old.filter fun e => e ∉ new, e.1 = key) ↔ ∀ q, (key, q) ∈ old → (key, q) ∈ new := by
  constructor
  · intro h q hq
    by_contra hgone
    exact h ⟨(key, q), List.mem_filter.2 ⟨hq, decide_eq_true hgone⟩, rfl⟩
  · rintro h ⟨⟨_, q⟩, he, rfl⟩
    obtain ⟨hq, hgone⟩ := List.mem_filter.1 he
    exact of_decide_eq_true hgone (h q hq)

/-- Of one name: a reload comes to the last place of the new list exactly if there is none, or it is
new, or the places are the same as before and so is the last one. -/
theorem placesBetween_eq_iff :
    placesBetween old new (lastPlace? old) key = lastPlace? new key ↔
      ∀ place, lastPlace? new key = some place → (key, place) ∉ old ∨
        ((∀ p, (key, p) ∈ old ↔ (key, p) ∈ new) ∧ lastPlace? old key = some place) := by
  unfold placesBetween
  cases hlast : lastPlace? new key with
  | none =>
      refine iff_of_true ?_ nofun
      have hnone := lastPlace?_eq_none_iff.1 hlast
      rw [lastPlace?_new_eq_none_iff.2 fun q hq => absurd hq (hnone q), Option.none_or,
        ite_eq_left_iff, not_exists_gone_iff]
      exact fun hgone => lastPlace?_eq_none_iff.2 fun q hq => hnone q (hgone q hq)
  | some place =>
      simp only [Option.some.injEq, forall_eq']
      -- A place that was listed before is not subscribed anew: it must not have been given up, and
      -- nothing may have been subscribed over it.
      by_cases hmem : (key, place) ∈ old
      · rw [or_iff_right (not_not.2 hmem), Option.or_eq_some_iff, or_iff_right,
          lastPlace?_new_eq_none_iff, Option.ite_none_left_eq_some, not_exists_gone_iff, ← and_assoc]
        · refine and_congr_left fun _ => ?_
          exact ⟨fun h q => ⟨h.2 q, h.1 q⟩, fun h => ⟨fun q => (h q).2, fun q => (h q).1⟩⟩
        · intro hnew
          have hnotin := (List.mem_filter.1 (mem_of_lastPlace? hnew)).2
          exact of_decide_eq_true hnotin hmem
      · refine iff_of_true ?_ (.inl hmem)
        rw [lastPlace?_filter hlast (decide_eq_true hmem), Option.some_or]

/-- **A reload comes to the last places of the new list** exactly if the list follows the old one. -/
theorem placesBetween_eq_iff_placesFollow :
    (∀ key, placesBetween old new (lastPlace? old) key = lastPlace? new key) ↔ PlacesFollow old new :=
  forall_congr' fun _ => placesBetween_eq_iff

theorem placesFollow_of_single (hold : SinglePlaced old) (hnew : SinglePlaced new) :
    PlacesFollow old new := by
  intro key place hplace
  rw [or_iff_not_imp_left, not_not]
  intro hmem
  have hboth : ∀ p, (key, p) ∈ old ∨ (key, p) ∈ new → p = place := by
    rintro p (hp | hp)
    · exact hold _ hp _ hmem rfl
    · exact hnew _ hp _ (mem_of_lastPlace? hplace) rfl
  refine ⟨fun p => ⟨fun hp => ?_, fun hp => ?_⟩, ?_⟩
  · rw [hboth p (.inl hp)]
    exact mem_of_lastPlace? hplace
  · rw [hboth p (.inr hp)]
    exact hmem
  · cases hlast : lastPlace? old key with
    | none => exact absurd hmem (lastPlace?_eq_none_iff.1 hlast place)
    | some q => rw [hboth q (.inl (mem_of_lastPlace? hlast))]

/-! ### Outputs that differ -/

theorem CertificateOutput.same_iff {a b : CertificateOutput} : a.same b = true ↔ a.entry = b.entry := by
  unfold same entry key Path.same
  simp only [Bool.and_eq_true, decide_eq_true_eq, Prod.mk.injEq, SubscriptionKey.mk.injEq,
    Place.directory.injEq]

theorem Patch.listed_iff {outputs : List CertificateOutput} {o : CertificateOutput} :
    listed outputs o = true ↔ o.entry ∈ outputs.map CertificateOutput.entry := by
  unfold listed
  rw [List.any_eq_true, List.mem_map]
  refine exists_congr fun a => and_congr_right fun _ => ?_
  rw [CertificateOutput.same_iff, eq_comm]

/-- What of the outputs of one list is missing in another. -/
theorem Patch.map_entry_filter (outputs others : List CertificateOutput) :
    (outputs.filter fun o => !listed others o).map CertificateOutput.entry =
      (outputs.map CertificateOutput.entry).filter
        fun e => e ∉ others.map CertificateOutput.entry := by
  rw [List.filter_map]
  refine congrArg (List.map _) (List.filter_congr fun o _ => ?_)
  rw [Function.comp_apply, Bool.eq_iff_iff, decide_eq_true_eq, ← listed_iff, Bool.not_eq_true']
  exact (Bool.not_eq_true _).symm.to_iff

theorem Patch.entries_added (old new : Settings) :
    (between old new).added.map CertificateOutput.entry =
      new.entries.filter fun e => e ∉ old.entries :=
  map_entry_filter new.outputs old.outputs

theorem Patch.entries_removed (old new : Settings) :
    (between old new).removed.map CertificateOutput.entry =
      old.entries.filter fun e => e ∉ new.entries :=
  map_entry_filter old.outputs new.outputs

end

namespace Service

/-- Where the bundles of a name go; nowhere if no subscription stands for it. -/
def place? (s : Service) (key : SubscriptionKey) : Option Place := s.deployment.gateway.place? key

/-- The registry of the service is in order, and the bundles of each name go to its place. -/
def Supplies (s : Service) (places : SubscriptionKey → Option Place) : Prop :=
  s.deployment.gateway.Supplies places

/-- The places after a change. -/
def Change.placesAfter (c : Change) (places : SubscriptionKey → Option Place) :
    SubscriptionKey → Option Place :=
  match c with
  | .unsubscribe o => fun key => if o.key = key then none else places key
  | .subscribe o => fun key =>
    if o.key = key then some (.directory o.directory.components) else places key
  | _ => places

/-- The places after changes, one after the other. -/
def placesAfterAll (places : SubscriptionKey → Option Place) (cs : List Change) :
    SubscriptionKey → Option Place :=
  cs.foldl (fun places c => c.placesAfter places) places

variable {tk : Toolkit} {s s' : Service} {c : Change} {cs : List Change}
  {places : SubscriptionKey → Option Place} {new : Settings} {patch : Patch}

/-! ### Changes -/

/-- To put an authority in force changes no place. -/
theorem supplies_putAuthority (h : s.Supplies places) (settings : AuthoritySettings)
    (thing : Option String) : (s.putAuthority tk settings thing).1.Supplies places := by
  unfold Supplies
  rw [(frame_putAuthority tk s settings thing).1]
  rcases (Gateway.keptBy_supplies tk places).configureAuthority_cases (d := s.deployment) h []
    settings with ⟨hsupplies, -⟩ | ⟨g, now, o, hg, hsettled, -⟩
  · exact hsupplies
  · rw [hsettled]
    exact hg.settle now o

/-- **Only outputs change places**, each the place of its own name. -/
theorem supplies_put (h : s.Supplies places) (hput : s.put tk c = (s', .ok ())) :
    s'.Supplies (c.placesAfter places) := by
  obtain ⟨rfl, hok⟩ := Prod.mk.inj hput
  cases c with
  | groups document => exact ⟨h.registered, h.place?⟩
  | session settings =>
      have hgateway := gateway_restartSweeps (s.setCapacity settings) settings
      have hsupplies : ((s.setCapacity settings).restartSweeps settings).Supplies places := by
        unfold Supplies
        rw [hgateway]
        exact ⟨h.registered, h.place?⟩
      exact hsupplies
  | certificates settings => exact Gateway.Supplies.configure h settings
  | authority settings thing => exact supplies_putAuthority h settings thing
  | connectivity settings => exact Gateway.Supplies.recordAddresses h _ _ _
  | unsubscribe o => exact Gateway.Supplies.unsubscribe h o.key
  | subscribe o => exact Gateway.Supplies.subscribe h hok

theorem supplies_putAll (h : s.Supplies places) (hput : s.putAll tk cs = (s', .ok ())) :
    s'.Supplies (placesAfterAll places cs) := by
  induction cs generalizing s places with
  | nil =>
      obtain ⟨rfl, -⟩ := Prod.mk.inj hput
      exact h
  | cons c cs ih =>
      rcases hc : s.put tk c with ⟨s₁, e | ⟨⟩⟩
      · rw [putAll_cons_of_error hc] at hput
        cases hput
      · rw [putAll_cons_of_ok hc] at hput
        exact ih (supplies_put h hc) hput

theorem placesAfterAll_cons (places : SubscriptionKey → Option Place) (c : Change)
    (cs : List Change) : placesAfterAll places (c :: cs) = placesAfterAll (c.placesAfter places) cs :=
  rfl

theorem placesAfterAll_subscribe (outputs : List CertificateOutput)
    (places : SubscriptionKey → Option Place) (key : SubscriptionKey) :
    placesAfterAll places (outputs.map .subscribe) key =
      (lastPlace? (outputs.map CertificateOutput.entry) key).or (places key) := by
  induction outputs generalizing places with
  | nil => rfl
  | cons o outputs ih =>
      rw [List.map_cons, placesAfterAll_cons, ih, List.map_cons, lastPlace?, Option.or_assoc]
      congr 1
      show (if o.key = key then _ else _) = Option.or (if o.key = key then _ else _) _
      split
      · rfl
      · rfl

theorem placesAfterAll_unsubscribe (outputs : List CertificateOutput)
    (places : SubscriptionKey → Option Place) (key : SubscriptionKey) :
    placesAfterAll places (outputs.map .unsubscribe) key =
      if ∃ e ∈ outputs.map CertificateOutput.entry, e.1 = key then none else places key := by
  induction outputs generalizing places with
  | nil => exact (if_neg (by simp)).symm
  | cons o outputs ih =>
      rw [List.map_cons, placesAfterAll_cons, ih, List.map_cons]
      simp only [List.exists_mem_cons_iff]
      show (if _ then none else if o.key = key then none else places key) = _
      by_cases ho : o.key = key
      · rw [if_pos ho, ite_self, if_pos (.inl ho)]
      · rw [if_neg ho]
        simp only [show o.entry.1 = o.key from rfl, ho, false_or]

/-- Sections change no place. -/
theorem placesAfterAll_section (b : Bool) (hc : ∀ places, c.placesAfter places = places)
    (places : SubscriptionKey → Option Place) (rest : List Change) :
    placesAfterAll places ((if b then [c] else []) ++ rest) = placesAfterAll places rest := by
  cases b with
  | false => rfl
  | true =>
      show placesAfterAll (c.placesAfter places) rest = _
      rw [hc]

/-- What the changes of a patch come to. -/
theorem placesAfterAll_changes (old new applied : Settings)
    (places : SubscriptionKey → Option Place) :
    placesAfterAll places ((Patch.between old new).changes applied) =
      placesBetween old.entries new.entries places := by
  unfold Patch.changes
  rw [placesAfterAll_section _ fun _ => rfl, placesAfterAll_section _ fun _ => rfl,
    placesAfterAll_section _ fun _ => rfl, placesAfterAll_section _ fun _ => rfl,
    placesAfterAll_section _ fun _ => rfl]
  funext key
  unfold placesAfterAll
  rw [List.foldl_append]
  refine (placesAfterAll_subscribe _ _ key).trans ?_
  rw [Patch.entries_added]
  refine congrArg (Option.or _) ((placesAfterAll_unsubscribe _ places key).trans ?_)
  rw [Patch.entries_removed]

/-! ### Events -/

/-- The bundles of each name go to the last place that the settings of the service list for it. -/
def Supplied (s : Service) : Prop := ∀ key, s.place? key = lastPlace? s.settings.entries key

/-- The outputs of a reload follow those before, unless nothing at all differs. -/
def FollowsAt (s : Service) : Event → Prop
  | .reload new =>
    (Patch.between s.settings new).isEmpty = true ∨ PlacesFollow s.settings.entries new.entries
  | .pass _ _ | .files _ => True

/-- The registry of the service is in order. -/
def Registered (s : Service) : Prop := s.deployment.gateway.subscriptions.Registered

theorem Registered.supplies (h : s.Registered) (hplace : ∀ key, s.place? key = places key) :
    s.Supplies places :=
  ⟨h, hplace⟩

/-- **What a reload does to places**, if it succeeds and anything differs. -/
theorem supplies_reload (h : s.Supplies places) (hok : (s.reload tk new).2 = .ok patch)
    (hfull : patch.isEmpty = false) :
    (s.reload tk new).1.Supplies (placesBetween s.settings.entries new.entries places) ∧
      (s.reload tk new).1.settings.entries = new.entries := by
  obtain ⟨-, rfl, ⟨hempty, -⟩ | ⟨-, s', hput, heq⟩⟩ := reload_ok_cases hok
  · cases hfull.symm.trans hempty
  · have hafter := supplies_putAll h hput
    rw [reloadChanges, placesAfterAll_changes] at hafter
    rw [heq]
    exact ⟨hafter, rfl⟩

theorem reload_of_isEmpty (hok : (s.reload tk new).2 = .ok patch) (hempty : patch.isEmpty = true) :
    (s.reload tk new).1 = s := by
  obtain ⟨-, rfl, ⟨-, heq⟩ | ⟨hfull, -⟩⟩ := reload_ok_cases hok
  · exact heq
  · cases hfull.symm.trans hempty

theorem supplies_pass (h : s.Supplies places) (calendar : Int) (millis : Nat) :
    (s.pass tk calendar millis).Supplies places :=
  (Gateway.keptBy_supplies tk places).wait (d := { s.deployment with calendar }) h millis

theorem registered_step {event : Event} (h : s.Registered) (hok : s.Succeeds tk event) :
    (s.step tk event).Registered := by
  have hsupplies : s.Supplies s.place? := h.supplies fun _ => rfl
  cases event with
  | reload new =>
      obtain ⟨patch, hok⟩ := hok
      cases hempty : patch.isEmpty with
      | true =>
          have heq : s.step tk (.reload new) = s := reload_of_isEmpty hok hempty
          rw [heq]
          exact h
      | false => exact (supplies_reload hsupplies hok hempty).1.registered
  | pass calendar millis => exact (supplies_pass hsupplies calendar millis).registered
  | files f => exact h

/-- **One event.**  A service whose bundles go to the last places keeps it so exactly if the outputs of
a reload follow those before. -/
theorem supplied_step_iff {event : Event} (h : s.Registered) (hsupplied : s.Supplied)
    (hok : s.Succeeds tk event) : (s.step tk event).Supplied ↔ s.FollowsAt event := by
  have hsupplies := h.supplies hsupplied
  cases event with
  | reload new =>
      obtain ⟨patch, hok⟩ := hok
      obtain rfl := (reload_ok_cases hok).2.1
      show _ ↔ (Patch.between s.settings new).isEmpty = true ∨
        PlacesFollow s.settings.entries new.entries
      cases hempty : (Patch.between s.settings new).isEmpty with
      | true =>
          have heq : s.step tk (.reload new) = s := reload_of_isEmpty hok hempty
          rw [heq]
          exact iff_of_true hsupplied (.inl rfl)
      | false =>
          obtain ⟨hafter, hentries⟩ := supplies_reload hsupplies hok hempty
          rw [or_iff_right Bool.false_ne_true, ← placesBetween_eq_iff_placesFollow]
          refine forall_congr' fun key => ?_
          rw [← hafter.place? key, ← hentries]
          rfl
  | pass calendar millis => exact iff_of_true (supplies_pass hsupplies calendar millis).place? trivial
  | files f => exact iff_of_true hsupplied trivial

/-! ### Runs -/

/-- A service keeps its bundles going to the last places exactly as long as the outputs follow. -/
theorem supplied_run_iff {events : List Event} (h : s.Registered) (hsupplied : s.Supplied)
    (hok : s.Throughout tk (Succeeds tk) events) :
    (∀ before, before <+: events → (s.run tk before).Supplied) ↔ s.Throughout tk FollowsAt events := by
  induction events generalizing s with
  | nil =>
      refine iff_of_true (fun before hbefore => ?_) trivial
      rw [List.prefix_nil.1 hbefore]
      exact hsupplied
  | cons event events ih =>
      obtain ⟨hevent, hok⟩ := hok
      have hstep := supplied_step_iff h hsupplied hevent
      constructor
      · -- The first event is judged from what it leaves, the others from there on.
        intro hall
        have hnext : (s.step tk event).Supplied := hall [event] (List.prefix_append [event] events)
        refine ⟨hstep.1 hnext, (ih (registered_step h hevent) hnext hok).1 fun before hbefore => ?_⟩
        exact hall (event :: before) (List.cons_prefix_cons.2 ⟨rfl, hbefore⟩)
      · rintro ⟨hfollows, hrest⟩ before hbefore
        rcases List.prefix_cons_iff.1 hbefore with rfl | ⟨rest, rfl, hprefix⟩
        · exact hsupplied
        · exact (ih (registered_step h hevent) (hstep.2 hfollows) hok).2 hrest rest hprefix

theorem entries_step {event : Event} (hok : s.Succeeds tk event) :
    (s.step tk event).settings.entries = s.settings.entries ∨
      ∃ new, event = .reload new ∧ (s.step tk event).settings.entries = new.entries := by
  cases event with
  | reload new =>
      obtain ⟨patch, hok⟩ := hok
      obtain ⟨-, -, ⟨-, heq⟩ | ⟨-, s', -, heq⟩⟩ := reload_ok_cases hok
      · exact .inl (congrArg (·.settings.entries) heq)
      · exact .inr ⟨new, rfl, congrArg (·.settings.entries) heq⟩
  | pass calendar millis => exact .inl rfl
  | files f => exact .inl rfl

/-- If no settings of a run have two places under one name, the outputs follow. -/
theorem followsAt_of_single {events : List Event} (h : SinglePlaced s.settings.entries)
    (hall : ∀ new, .reload new ∈ events → SinglePlaced new.entries)
    (hok : s.Throughout tk (Succeeds tk) events) : s.Throughout tk FollowsAt events := by
  induction events generalizing s with
  | nil => trivial
  | cons event events ih =>
      obtain ⟨hevent, hok⟩ := hok
      refine ⟨?_, ih ?_ (fun new hnew => hall new (List.mem_cons_of_mem event hnew)) hok⟩
      · cases event with
        | reload new => exact .inr (placesFollow_of_single h (hall new List.mem_cons_self))
        | pass calendar millis => trivial
        | files f => trivial
      · rcases entries_step hevent with heq | ⟨new, rfl, heq⟩
        · exact heq ▸ h
        · exact heq ▸ hall new List.mem_cons_self

/-- **A started service** writes the bundles of each name to the last place of its settings. -/
theorem supplies_start {world : World} {registry : IdentityRegistry} {calendar : Int}
    {registers : Bool} {settings : Settings}
    (hnew : Service.new world registry calendar registers settings = .ok s)
    (hstart : (s.start tk).2 = .ok ()) :
    (s.start tk).1.Supplies (lastPlace? settings.entries) ∧ (s.start tk).1.settings = settings := by
  obtain ⟨-, rfl, hsubscriptions, -⟩ := new_eq_ok hnew
  obtain ⟨s', hput, hstarted⟩ := exists_putAll_of_start hstart
  have hnone : s.Supplies fun _ => none := by
    refine ⟨?_, fun key => ?_⟩
    · rw [hsubscriptions]
      exact Subscriptions.registered_empty _
    · unfold Gateway.place?
      rw [hsubscriptions]
      rfl
  have hplaces : placesAfterAll (fun _ => none) (startChanges s.settings) =
      lastPlace? s.settings.entries := by
    funext key
    exact (placesAfterAll_subscribe s.settings.outputs (fun _ => none) key).trans Option.or_none
  have hafter := supplies_putAll hnone hput
  rw [hplaces] at hafter
  refine ⟨?_, settings_start tk s⟩
  unfold Supplies
  rw [hstarted, (frame_startTasks s').1]
  exact hafter

/-- **Bundles go where a fresh start of the settings would have them go**, over a run whose reloads all
succeed, at all times exactly if the outputs of each reload follow those before.  They do if no settings
have two places under one name.  In a service that is so supplied every listed output has its
subscription. -/
theorem supplied_throughout {world : World} {registry : IdentityRegistry} {calendar : Int}
    {registers : Bool} {settings : Settings}
    (hnew : Service.new world registry calendar registers settings = .ok s)
    (hstart : (s.start tk).2 = .ok ()) {events : List Event}
    (hok : (s.start tk).1.Throughout tk (Succeeds tk) events) :
    let started := (s.start tk).1
    ((∀ before, before <+: events → (started.run tk before).Supplied) ↔
        started.Throughout tk FollowsAt events) ∧
      (SinglePlaced settings.entries → (∀ new, .reload new ∈ events → SinglePlaced new.entries) →
        started.Throughout tk FollowsAt events) ∧
      (∀ tk' world' registry' calendar' registers' fresh,
        Service.new world' registry' calendar' registers' (started.run tk events).settings =
            .ok fresh → (fresh.start tk').2 = .ok () →
          ((started.run tk events).Supplied ↔
            ∀ key, (started.run tk events).place? key = (fresh.start tk').1.place? key)) ∧
      ((started.run tk events).Supplied → ∀ o ∈ (started.run tk events).settings.outputs,
        ((started.run tk events).place? o.key).isSome = true) := by
  intro started
  obtain ⟨hsupplies, hsettings⟩ := supplies_start hnew hstart
  have hsupplied : started.Supplied := fun key => hsettings ▸ hsupplies.place? key
  refine ⟨supplied_run_iff hsupplies.registered hsupplied hok, fun hsingle hall => ?_, ?_, ?_⟩
  · exact followsAt_of_single (hsettings.symm ▸ hsingle) hall hok
  · intro tk' world' registry' calendar' registers' fresh hfresh hfreshStart
    have hfreshPlaces := (supplies_start hfresh hfreshStart).1.place?
    exact forall_congr' fun key => by
      rw [show (fresh.start tk').1.place? key = _ from hfreshPlaces key]
  · intro h o ho
    rw [h o.key, Option.isSome_iff_ne_none]
    intro hnone
    exact lastPlace?_eq_none_iff.1 hnone _ (List.mem_map_of_mem ho)

/-! ### Two places under one name -/

open CertificateRun (plainToolkit)

/-- Settings with outputs and nothing else. -/
def outputSettings (outputs : List CertificateOutput) : Settings :=
  { Settings.standard with workDir := ⟨"/work"⟩, outputs }

/-- The broker's certificates in a directory. -/
def brokerAt (directory : String) : CertificateOutput := ⟨"broker", .server, ⟨directory⟩⟩

/-- The viewer's certificates in a directory. -/
def viewerAt (directory : String) : CertificateOutput := ⟨"viewer", .client, ⟨directory⟩⟩

/-- Another directory and another order. -/
theorem supplied_throughout_moved :
    let settings := outputSettings [brokerAt "/first", viewerAt "/view"]
    let moved := outputSettings [viewerAt "/view", brokerAt "/second"]
    let started := ((onEmptyDisk settings).start plainToolkit).1
    Service.new CertificateRun.emptyWorld .empty 0 false settings = .ok (onEmptyDisk settings) ∧
      ((onEmptyDisk settings).start plainToolkit).2 = .ok () ∧
      (∃ patch, (started.reload plainToolkit moved).2 = .ok patch) ∧
      (started.run plainToolkit [.reload moved]).Supplied ∧
      (started.run plainToolkit [.reload moved]).place? (brokerAt "/second").key =
        some (.directory ["/", "second"]) := by
  intro settings moved started
  have hnew := new_onEmptyDisk settings (by decide +kernel)
  have hstart : ((onEmptyDisk settings).start plainToolkit).2 = .ok () := by decide +kernel
  have hreload : (started.reload plainToolkit moved).2 = .ok (Patch.between settings moved) := by
    decide +kernel
  have hok : started.Throughout plainToolkit (Succeeds plainToolkit) [.reload moved] :=
    ⟨⟨_, hreload⟩, trivial⟩
  obtain ⟨hiff, hfollows, -⟩ := supplied_throughout hnew hstart hok
  have hsingle : ∀ new, Event.reload new ∈ [Event.reload moved] → SinglePlaced new.entries := by
    intro new hmem
    obtain rfl := Event.reload.inj (List.mem_singleton.1 hmem)
    decide +kernel
  exact ⟨hnew, hstart, ⟨_, hreload⟩,
    hiff.2 (hfollows (by decide +kernel) hsingle) _ (List.prefix_refl _), by decide +kernel⟩

/-- Of two outputs under one name the second goes: the first is still listed, a fresh start writes its
bundles, but the running service has given up the name. -/
theorem unsupplied_shared :
    let settings := outputSettings [brokerAt "/first", brokerAt "/second"]
    let left := outputSettings [brokerAt "/first"]
    let started := ((onEmptyDisk settings).start plainToolkit).1
    let after := (started.reload plainToolkit left).1
    let fresh := ((onEmptyDisk left).start plainToolkit).1
    Service.new CertificateRun.emptyWorld .empty 0 false settings = .ok (onEmptyDisk settings) ∧
      ((onEmptyDisk settings).start plainToolkit).2 = .ok () ∧
      (∃ patch, (started.reload plainToolkit left).2 = .ok patch) ∧
      after.settings = left ∧
      Service.new CertificateRun.emptyWorld .empty 0 false left = .ok (onEmptyDisk left) ∧
      ((onEmptyDisk left).start plainToolkit).2 = .ok () ∧
      after.place? (brokerAt "/first").key = none ∧
      fresh.place? (brokerAt "/first").key = some (.directory ["/", "first"]) := by
  intro settings left started after fresh
  exact ⟨new_onEmptyDisk _ (by decide +kernel), by decide +kernel,
    ⟨Patch.between settings left, by decide +kernel⟩, by decide +kernel,
    new_onEmptyDisk _ (by decide +kernel), by decide +kernel, by decide +kernel, by decide +kernel⟩

end Service

end DeviceAccess
