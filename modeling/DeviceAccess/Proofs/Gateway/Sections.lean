import DeviceAccess.Proofs.Deployment.Waiting
import DeviceAccess.Proofs.Leaf.Registry
import DeviceAccess.Proofs.Sessions.Refresh

/-!
# What settings put in force

Five sections of the settings have a part of the gateway of their own (`Gateway.Sections`): the groups,
the capacity of the session cache, the settings of issued certificates, the configured addresses and the
authority.  Each operation of the gateway concerns at most one of them, and nothing that goes on in the
background concerns any (`Gateway.keptBy_sections`).
-/

namespace DeviceAccess

/-- The sections of the settings that have a part of the gateway of their own. -/
inductive Section where
  | groups
  | session
  | certificates
  | authority
  | connectivity
  deriving DecidableEq

/-! ### The parts of the gateway -/

/-- What the sections put in force. -/
structure Gateway.Sections where
  groups : Groups
  capacity : Nat
  certificates : LeafSettings
  addresses : OrderedSet HostAddress
  authority : Option AuthorityMaterial

/-- What is in force in a gateway. -/
def Gateway.sections (g : Gateway) : Gateway.Sections where
  groups := g.groups
  capacity := g.sessions.capacity
  certificates := g.subscriptions.settings
  addresses := g.subscriptions.reachability.ofSource Reachability.configurationSource
  authority := g.authority.material

/-- The same is in force for a section. -/
def Gateway.Sections.AgreeOn (a b : Gateway.Sections) : Section → Prop
  | .groups => a.groups = b.groups
  | .session => a.capacity = b.capacity
  | .certificates => a.certificates = b.certificates
  | .authority => a.authority = b.authority
  | .connectivity => a.addresses = b.addresses

theorem Gateway.Sections.AgreeOn.refl (a : Gateway.Sections) (x : Section) : a.AgreeOn a x := by
  cases x with
  | groups => rfl
  | session => rfl
  | certificates => rfl
  | authority => rfl
  | connectivity => rfl

theorem Gateway.Sections.AgreeOn.symm {a b : Gateway.Sections} {x : Section} (h : a.AgreeOn b x) :
    b.AgreeOn a x := by
  cases x with
  | _ => exact Eq.symm h

theorem Gateway.Sections.AgreeOn.trans {a b c : Gateway.Sections} {x : Section} (h : a.AgreeOn b x)
    (h' : b.AgreeOn c x) : a.AgreeOn c x := by
  cases x with
  | _ => exact Eq.trans h h'

namespace Subscriptions

variable (tk : Toolkit) (now : Int) (authority : AuthorityStore)

theorem frame_issueEach (start : Subscriptions × World × Nat) (es : List (Nat × Subscription)) :
    (issueEach tk now authority start es).1.settings = start.1.settings ∧
      (issueEach tk now authority start es).1.reachability = start.1.reachability := by
  induction es generalizing start with
  | nil => exact ⟨rfl, rfl⟩
  | cons e es ih =>
      obtain ⟨m, w, n⟩ := start
      have hissue : (issueTo tk now authority m w e).1.settings = m.settings ∧
          (issueTo tk now authority m w e).1.reachability = m.reachability := ⟨rfl, rfl⟩
      rcases h : issueTo tk now authority m w e with ⟨m', w', f | ⟨⟩⟩
      · rw [h] at hissue
        rw [issueEach_of_error h]
        exact ⟨(ih _).1.trans hissue.1, (ih _).2.trans hissue.2⟩
      · rw [h] at hissue
        rw [issueEach_of_ok h]
        exact ⟨(ih _).1.trans hissue.1, (ih _).2.trans hissue.2⟩

/-- Issuing certificates concerns neither settings nor addresses. -/
theorem frame_reissue (due : Subscription → Bool) (m : Subscriptions) (w : World) :
    (reissue tk now authority due m w).1.settings = m.settings ∧
      (reissue tk now authority due m w).1.reachability = m.reachability :=
  frame_issueEach tk now authority (m, w, 0) _

/-- Neither does subscribing. -/
theorem frame_subscribe (m : Subscriptions) (w : World) (key : SubscriptionKey)
    (recipient : Recipient) :
    (subscribe tk now authority m w key recipient).1.settings = m.settings ∧
      (subscribe tk now authority m w key recipient).1.reachability = m.reachability := by
  unfold subscribe
  rcases w.draw (tk.newKey m.settings.keyType) with ⟨w', e | privateKey⟩
  · exact ⟨rfl, rfl⟩
  · simp only
    split
    · have hissue : ∀ e, (issueTo tk now authority
          (m.track (.new key.service key.kind privateKey recipient)) w' e).1.settings = m.settings ∧
          (issueTo tk now authority
            (m.track (.new key.service key.kind privateKey recipient)) w' e).1.reachability =
            m.reachability := fun e => ⟨rfl, rfl⟩
      split
      · next m' w'' e heq =>
          have hframe := hissue (m.next, .new key.service key.kind privateKey recipient)
          rw [heq] at hframe
          exact hframe
      · next m' w'' heq =>
          have hframe := hissue (m.next, .new key.service key.kind privateKey recipient)
          rw [heq] at hframe
          obtain ⟨-, -, hsettings, hreachability⟩ := frame_putLive m' key m.next
          exact ⟨hsettings.trans hframe.1, hreachability.trans hframe.2⟩
    · exact (frame_putLive _ key m.next).2.2

end Subscriptions

namespace Gateway

variable (tk : Toolkit) (now : Int)

theorem sections_refresh (source : IdentitySource) (g : Gateway) :
    (g.refresh source).1.sections = g.sections := by
  have hcapacity := SessionManager.capacity_refreshEach
    (fun hash => DeviceFiles.load g.authority.workDir hash g.world.disk) certificateHash source.steady
    (g.sessions, []) g.sessions.hashes
  unfold sections
  rw [show (g.refresh source).1.sessions.capacity = g.sessions.capacity from hcapacity]
  rfl

theorem sections_closeIdle (clock timeout : Nat) (g : Gateway) :
    (g.closeIdle clock timeout).1.sections = g.sections := by
  have hcapacity := SessionManager.capacity_closeAll g.sessions
    (g.sessions.cache.idleSince clock timeout)
  unfold sections
  rw [show (g.closeIdle clock timeout).1.sessions.capacity = g.sessions.capacity from hcapacity]
  rfl

theorem sections_renew (millis : Int) (g : Gateway) :
    (g.renew tk now millis).1.sections = g.sections := by
  obtain ⟨hsettings, hreachability⟩ := Subscriptions.frame_reissue tk now g.authority
    (fun s => s.isDue millis) g.subscriptions g.world
  unfold sections
  rw [show (g.renew tk now millis).1.subscriptions.settings = g.subscriptions.settings from hsettings,
    show (g.renew tk now millis).1.subscriptions.reachability = g.subscriptions.reachability from
      hreachability]
  rfl

/-- What goes on in the background changes nothing that settings put in force. -/
theorem keptBy_sections (x : Sections) : KeptByPasses tk fun g => g.sections = x where
  refresh source h := (sections_refresh source _).trans h
  closeIdle clock timeout h := (sections_closeIdle clock timeout _).trans h
  renew now millis h := (sections_renew tk now millis _).trans h

/-- To settle after an operation on the authority concerns the authority only. -/
theorem sections_settle (g : Gateway) (o : AuthorityOutcome) :
    (g.settle tk now o).1.sections = { g.sections with authority := o.store.material } := by
  unfold settle
  cases o.changed with
  | none => rfl
  | some chain =>
      obtain ⟨hsettings, hreachability⟩ := Subscriptions.frame_reissue tk now o.store (fun _ => true)
        g.subscriptions o.world
      unfold sections
      simp only
      rw [show (g.subscriptions.chainChanged tk now o.store o.world).1.settings =
          g.subscriptions.settings from hsettings,
        show (g.subscriptions.chainChanged tk now o.store o.world).1.reachability =
          g.subscriptions.reachability from hreachability]

theorem sections_recordAddresses (g : Gateway) (addresses : List HostAddress) :
    (g.recordAddresses tk now Reachability.configurationSource addresses).1.sections =
      { g.sections with addresses := OrderedSet.ofList addresses } := by
  have hrecorded := g.subscriptions.reachability.ofSource_record Reachability.configurationSource
    addresses
  unfold recordAddresses Subscriptions.recordAddresses sections
  simp only
  split
  · rw [hrecorded]
  · obtain ⟨hsettings, hreachability⟩ := Subscriptions.frame_reissue tk now g.authority
      (fun s => s.kind = .server)
      { g.subscriptions with
        reachability := (g.subscriptions.reachability.record Reachability.configurationSource
          addresses).1 } g.world
    rw [hsettings, hreachability, hrecorded]

theorem sections_subscribe (g : Gateway) (key : SubscriptionKey) (recipient : Recipient) :
    (g.subscribe tk now key recipient).1.sections = g.sections := by
  obtain ⟨hsettings, hreachability⟩ := Subscriptions.frame_subscribe tk now g.authority
    g.subscriptions g.world key recipient
  unfold subscribe sections
  simp only
  rw [hsettings, hreachability]

theorem sections_unsubscribe (g : Gateway) (key : SubscriptionKey) :
    (g.unsubscribe key).1.sections = g.sections := by
  obtain ⟨-, -, hsettings, hreachability⟩ := Subscriptions.frame_unsubscribe g.subscriptions key
  unfold unsubscribe sections
  simp only
  rw [hsettings, hreachability]

end Gateway

end DeviceAccess
