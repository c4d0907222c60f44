import DeviceAccess.Proofs.Deployment.Waiting
import DeviceAccess.Proofs.Gateway.CertificateRuns
import DeviceAccess.Proofs.Gateway.PublicFile

/-!
# Calls that put an authority in force

Four calls put an authority in force: one generates it, one takes imported material, one asks the
provider for the material first, and one does what settings say.  Asking may be repeated after waits,
in which background tasks go on but nobody touches the authority.  So each of the calls comes to some
waits and then fails, or settles the gateway after one operation on the authority
(`Deployment.perform_cases`), which is all or nothing.
-/

namespace DeviceAccess

namespace Gateway

variable {tk : Toolkit} {now : Int}

/-! ### Settling -/

/-- A tracked subscription takes its bundles from the work directory. -/
def SharesWorkDir (g : Gateway) (workDir : Path) (d : Disk) : Prop :=
  ∃ e ∈ g.subscriptions.tracked, ∃ path, e.2.recipient = .directory path ∧
    d.resolve path = d.resolve workDir

theorem authority_settle (tk : Toolkit) (now : Int) (g : Gateway) (o : AuthorityOutcome) :
    (g.settle tk now o).1.authority = o.store := by
  unfold settle
  cases o.changed with
  | none => rfl
  | some chain => rfl

/-- The bundles that follow from a new chain leave the published certificate alone, unless a
subscription takes its bundles from the work directory; that puts the chain there. -/
theorem keepsWithin_settle (tk : Toolkit) (now : Int) (g : Gateway) {o : AuthorityOutcome}
    {m : AuthorityMaterial} (hm : o.store.material = some m) :
    Disk.KeepsWithin o.store.publicFile
      (fun text => text = m.signing ∨
        text = String.join m.chain ∧ g.SharesWorkDir o.store.workDir o.world.disk)
      o.world.disk (g.settle tk now o).1.world.disk := by
  unfold settle
  cases o.changed with
  | none => exact .refl _ _ _
  | some chain =>
      refine Subscriptions.keepsWithin_issueEach tk now g.subscriptions 0 fun e he => ?_
      intro ca path hca hr hplace
      obtain rfl := Option.some.inj (hm.symm.trans hca)
      exact .inr ⟨rfl, e, List.mem_of_mem_filter he, path, hr, hplace⟩

/-- **The published certificate is the one in force.**  When the gateway has settled after an operation
on its authority that succeeded, the file `ca.pem` of the work directory holds the signing certificate
in force, and nothing else unless a subscription takes its bundles from the work directory; then the
rest of the chain may follow.  After an operation that failed nobody was handed anything. -/
theorem settle_allOrNothing (tk : Toolkit) (now : Int) (g : Gateway) {o : AuthorityOutcome}
    (h : o.AllOrNothing g.authority) :
    let r := g.settle tk now o
    let d := r.1.world.disk
    (∀ e, r.2 = .error e → r.1.authority.material = g.authority.material ∧
      r.1.subscriptions = g.subscriptions) ∧
    (r.2 = .ok () → ∃ m rest, r.1.authority.material = some m ∧
      d.readText r.1.authority.publicFile = .ok (m.signing ++ rest) ∧
      (rest ≠ "" → rest = String.join m.others ∧ g.SharesWorkDir r.1.authority.workDir d)) := by
  intro r d
  have hresult : r.2 = o.result := Gateway.KeptByPasses.settle_snd g now o
  obtain ⟨hdir, ⟨e, herror, hmaterial, hchanged⟩ | ⟨hok, m, hm, hread⟩⟩ := h
  · have hr : r = ({ g with authority := o.store, world := o.world }, o.result) := by
      show g.settle tk now o = _
      unfold settle
      rw [hchanged]
    refine ⟨fun e _ => ?_, fun hok => ?_⟩
    · rw [hr]
      exact ⟨hmaterial, rfl⟩
    · rw [hresult, herror] at hok
      cases hok
  · refine ⟨fun e herror => ?_, fun _ => ?_⟩
    · rw [hresult, hok] at herror
      cases herror
    · obtain ⟨hcurrent, htext⟩ := keepsWithin_settle tk now g hm
      obtain ⟨text, hread', htext⟩ := htext ⟨m.signing, hread, .inl rfl⟩
      rw [authority_settle]
      obtain rfl | ⟨rfl, e, he, path, hr, hplace⟩ := htext
      · exact ⟨m, "", hm, by rwa [String.append_empty], fun h => absurd rfl h⟩
      · refine ⟨m, String.join m.others, hm, ?_, fun _ => ⟨rfl, e, he, path, hr, ?_⟩⟩
        · rwa [AuthorityMaterial.chain, String.join_cons] at hread'
        · rw [Disk.resolve_congr hcurrent, Disk.resolve_congr hcurrent]
          exact hplace

end Gateway

namespace Deployment

variable {tk : Toolkit} {d : Deployment}

/-! ### Asking again -/

/-- What goes on in the background does not touch the authority. -/
theorem keptBy_authority (a : AuthorityStore) :
    Gateway.KeptByPasses tk fun g => g.authority = a where
  refresh _ h := h
  closeIdle _ _ h := h
  renew _ _ h := h

theorem authority_waits (tk : Toolkit) (d : Deployment) (waits : List Nat) :
    (waits.foldl (wait tk) d).gateway.authority = d.gateway.authority := by
  induction waits generalizing d with
  | nil => rfl
  | cons millis waits ih =>
      exact (ih (d.wait tk millis)).trans ((keptBy_authority d.gateway.authority).wait rfl millis)

theorem allows_of_next_eq_some {α : Type} {policy : RetryPolicy} {worthRepeating : Fault → Bool}
    {calls : Nat} {delay : Duration} {r : Except Fault α}
    (h : policy.next worthRepeating (calls + 1) r = some delay) :
    policy.allows (calls + 1) = true ∧ delay = policy.delay calls := by
  unfold RetryPolicy.next RetryPolicy.nextBy at h
  cases r with
  | ok a => cases h
  | error e =>
      obtain ⟨hcond, hdelay⟩ := Option.ite_none_right_eq_some.1 h
      exact ⟨(Bool.and_eq_true_iff.1 hcond).2, (Option.some.inj hdelay).symm⟩

/-- A call that leaves the deployment alone and is repeated without a stop only waits, as long as the
policy says. -/
theorem exists_waits_repeatCall {α : Type} (tk : Toolkit) (policy : RetryPolicy)
    (worthRepeating : Fault → Bool) {call : Call α} (hcall : ∀ d faults, (call d faults).1 = d)
    (limit calls : Nat) (faults : StagedFaults) (d : Deployment) :
    ∃ n, (∀ k ∈ List.range' calls n, policy.allows (k + 1) = true) ∧
      (d.repeatCall tk policy worthRepeating none call limit calls faults).1 =
        ((List.range' calls n).map fun k => (policy.delay k).millis).foldl (wait tk) d := by
  induction limit generalizing calls faults d with
  | zero => exact ⟨0, nofun, hcall d faults⟩
  | succ limit ih =>
      have hd := hcall d faults
      unfold repeatCall
      rcases hr : call d faults with ⟨d', faults', r⟩
      rw [hr] at hd
      obtain rfl : d' = d := hd
      simp only
      cases hnext : policy.next worthRepeating (calls + 1) r with
      | none => exact ⟨0, nofun, rfl⟩
      | some delay =>
          obtain ⟨hallows, rfl⟩ := allows_of_next_eq_some hnext
          obtain ⟨n, hn, heq⟩ := ih (calls + 1) faults' (d'.wait tk (policy.delay calls).millis)
          refine ⟨n + 1, ?_, heq⟩
          rw [List.range'_succ, List.forall_mem_cons]
          exact ⟨hallows, hn⟩

/-- To ask for material comes to waits of two and four seconds at most. -/
theorem exists_waits_materialCall (tk : Toolkit) (uris : AuthorityUris) (faults : StagedFaults)
    (d : Deployment) :
    ∃ waits, waits <+: [2000, 4000] ∧
      (d.repeatCall tk importPolicy isUnavailable none (materialCall uris) 3 0 faults).1 =
        waits.foldl (wait tk) d := by
  obtain ⟨n, hn, heq⟩ := exists_waits_repeatCall tk importPolicy isUnavailable
    (Gateway.KeptByPasses.materialCall_fst uris) 3 0 faults d
  refine ⟨_, ?_, heq⟩
  have hle : n ≤ 2 := by
    -- The policy allows no attempt after the third.
    by_contra hlt
    exact absurd (hn 2 (List.mem_range'_1.2 ⟨by omega, by omega⟩)) (by decide)
  have hwaits : [2000, 4000] = (List.range' 0 2).map fun k => (importPolicy.delay k).millis := by
    decide +kernel
  rw [hwaits]
  refine List.IsPrefix.map _ ⟨List.range' (0 + n) (2 - n), ?_⟩
  rw [List.range'_append_1, Nat.add_sub_cancel' hle]

/-! ### The four calls -/

/-- A call that is to put an authority in force. -/
inductive AuthorityCall where
  | generate (keyType : KeyType)
  | install (material : KeyMaterial)
  | importFrom (faults : StagedFaults) (uris : AuthorityUris)
  | configure (faults : StagedFaults) (settings : AuthoritySettings)

/-- Whether the provider has to be asked for material. -/
def AuthorityCall.asksProvider : AuthorityCall → Bool
  | generate _ => false
  | install _ => false
  | importFrom _ _ => true
  | configure _ settings =>
    match settings.uris with
    | .ok (some _) => true
    | _ => false

/-- Makes a call. -/
def perform (tk : Toolkit) (d : Deployment) : AuthorityCall → Deployment × Except Fault Unit
  | .generate keyType => d.adopt (d.gateway.generateAuthority tk d.calendar keyType)
  | .install material => d.adopt (d.gateway.importAuthority tk d.calendar material)
  | .importFrom faults uris => d.importAuthority tk faults uris
  | .configure faults settings => d.configureAuthority tk faults settings

/-- After some waits a call fails, or settles the gateway after one operation on the authority. -/
def Settles (tk : Toolkit) (d : Deployment) (r : Deployment × Except Fault Unit) : Prop :=
  (∃ e, r = (d, .error e)) ∨
    ∃ o : AuthorityOutcome, o.AllOrNothing d.gateway.authority ∧
      r = d.adopt (d.gateway.settle tk d.calendar o)

theorem settles_generate (tk : Toolkit) (d : Deployment) (keyType : KeyType) :
    d.Settles tk (d.adopt (d.gateway.generateAuthority tk d.calendar keyType)) :=
  .inr ⟨_, AuthorityStore.allOrNothing_update _ _ _ _ _, rfl⟩

theorem settles_install (tk : Toolkit) (d : Deployment) (material : KeyMaterial) :
    d.Settles tk (d.adopt (d.gateway.importAuthority tk d.calendar material)) :=
  .inr ⟨_, AuthorityStore.allOrNothing_install _ _ _ _ _, rfl⟩

theorem settles_importAuthority (tk : Toolkit) (d : Deployment) (faults : StagedFaults)
    (uris : AuthorityUris) :
    ∃ waits, waits <+: [2000, 4000] ∧
      (waits.foldl (wait tk) d).Settles tk (d.importAuthority tk faults uris) := by
  obtain ⟨waits, hwaits, heq⟩ := exists_waits_materialCall tk uris faults d
  refine ⟨waits, hwaits, ?_⟩
  unfold importAuthority
  rcases hr : d.repeatCall tk importPolicy isUnavailable none (materialCall uris) 3 0 faults with
    ⟨d', e | material⟩
  · rw [hr] at heq
    exact .inl ⟨e, congrArg (·, _) heq⟩
  · rw [hr] at heq
    obtain rfl : d' = _ := heq
    exact settles_install tk _ material

theorem perform_cases (tk : Toolkit) (d : Deployment) (call : AuthorityCall) :
    ∃ waits, waits <+: [2000, 4000] ∧ (call.asksProvider = false → waits = []) ∧
      (waits.foldl (wait tk) d).Settles tk (d.perform tk call) := by
  cases call with
  | generate keyType => exact ⟨[], List.nil_prefix, fun _ => rfl, settles_generate tk d keyType⟩
  | install material => exact ⟨[], List.nil_prefix, fun _ => rfl, settles_install tk d material⟩
  | importFrom faults uris =>
      obtain ⟨waits, hwaits, hsettles⟩ := settles_importAuthority tk d faults uris
      exact ⟨waits, hwaits, Bool.noConfusion, hsettles⟩
  | configure faults settings =>
      unfold perform configureAuthority AuthorityCall.asksProvider
      simp only
      cases settings.uris with
      | error e => exact ⟨[], List.nil_prefix, fun _ => rfl, .inl ⟨e, rfl⟩⟩
      | ok uris? =>
          cases uris? with
          | none =>
              exact ⟨[], List.nil_prefix, fun _ => rfl, settles_generate tk d settings.keyType⟩
          | some uris =>
              obtain ⟨waits, hwaits, hsettles⟩ := settles_importAuthority tk d faults uris
              exact ⟨waits, hwaits, Bool.noConfusion, hsettles⟩

/-- **Calls that put an authority in force are all or nothing.**  Let a call wait for the provider, if
it has to; waiting does not touch the authority.

* If the call fails, the authority and its chain are what they were, and the subscriptions are what
  they are after the waits alone: nobody is handed a bundle.
* If it succeeds, the file `ca.pem` of the work directory holds the signing certificate in force, and
  nothing else unless a subscription takes its bundles from the work directory; then the rest of the
  chain may follow.

Of the operations on the authority itself, too, one that fails reports no new chain to anybody, and
one that succeeds has published the signing certificate before it does. -/
theorem perform_allOrNothing (tk : Toolkit) :
    (∀ (s : AuthorityStore) (w : World),
      (∀ now keyType, (s.update tk now w keyType).AllOrNothing s) ∧
        ∀ key chain, (s.install tk w key chain).AllOrNothing s) ∧
    ∀ (d : Deployment) (call : AuthorityCall),
      ∃ waits, waits <+: [2000, 4000] ∧ (call.asksProvider = false → waits = []) ∧
        let waited := (waits.foldl (wait tk) d).gateway
        let r := d.perform tk call
        let g := r.1.gateway
        waited.authority = d.gateway.authority ∧
        (∀ e, r.2 = .error e → g.authority.material = d.gateway.authority.material ∧
          g.authority.chain = d.gateway.authority.chain ∧ g.subscriptions = waited.subscriptions) ∧
        (r.2 = .ok () → ∃ m rest, g.authority.material = some m ∧
          g.world.disk.readText g.authority.publicFile = .ok (m.signing ++ rest) ∧
          (rest ≠ "" → rest = String.join m.others ∧
            waited.SharesWorkDir g.authority.workDir g.world.disk)) := by
  refine ⟨fun s w => ⟨fun now keyType => AuthorityStore.allOrNothing_update tk now s w keyType,
    AuthorityStore.allOrNothing_install tk s w⟩, fun d call => ?_⟩
  obtain ⟨waits, hwaits, hnone, hsettles⟩ := perform_cases tk d call
  have hauthority := authority_waits tk d waits
  refine ⟨waits, hwaits, hnone, hauthority, ?_⟩
  obtain ⟨e, heq⟩ | ⟨o, ho, heq⟩ := hsettles
  · rw [heq]
    exact ⟨fun _ _ => ⟨congrArg (·.material) hauthority, congrArg (·.chain) hauthority, rfl⟩, nofun⟩
  · obtain ⟨herror, hok⟩ := Gateway.settle_allOrNothing tk (waits.foldl (wait tk) d).calendar _ ho
    rw [heq]
    refine ⟨fun e h => ?_, hok⟩
    obtain ⟨hmaterial, hsubscriptions⟩ := herror e h
    rw [hauthority] at hmaterial
    refine ⟨hmaterial, ?_, hsubscriptions⟩
    unfold AuthorityStore.chain
    rw [← hmaterial]
    rfl

/-- A deployment without files, whose fifth write is to fail. -/
def faultyStart : Deployment :=
  .new (.new ⟨⟨∅, [], [false, false, false, false, true]⟩, .ofSeed []⟩ ⟨"/work"⟩ .standard) .empty 0

/-- An authority is generated and published; the import that follows cannot publish its own, and the
generated authority stays. -/
theorem perform_allOrNothing_faulty :
    let tk := CertificateRun.plainToolkit
    let generated := faultyStart.perform tk (.generate .ecdsaP256)
    let imported := generated.1.perform tk (.install ⟨"key", ["imported"]⟩)
    generated.2 = .ok () ∧ imported.2 = .error (.io "Input/output error") ∧
      imported.1.gateway.authority.material = generated.1.gateway.authority.material ∧
      ∃ m rest, generated.1.gateway.authority.material = some m ∧
        generated.1.gateway.world.disk.readText generated.1.gateway.authority.publicFile =
          .ok (m.signing ++ rest) := by
  intro tk generated imported
  have hgenerated : generated.2 = .ok () := by decide +kernel
  have himported : imported.2 = .error (.io "Input/output error") := by decide +kernel
  obtain ⟨_, -, -, -, -, hok⟩ := (perform_allOrNothing tk).2 faultyStart (.generate .ecdsaP256)
  obtain ⟨_, -, -, -, herror, -⟩ :=
    (perform_allOrNothing tk).2 generated.1 (.install ⟨"key", ["imported"]⟩)
  obtain ⟨m, rest, hm, hread, -⟩ := hok hgenerated
  exact ⟨hgenerated, himported, (herror _ himported).1, m, rest, hm, hread⟩

end Deployment

end DeviceAccess
