import DeviceAccess.Proofs.Authority.Store
import DeviceAccess.Proofs.Certificate.Anchors
import DeviceAccess.Proofs.Gateway.Run

/-!
# Who is taken for a component

The gateway gives the id of its components to whoever shows a certificate that its authority issued,
and asks the identity source about everybody else.  What counts as its authority is the whole chain
that is in force: a certificate that leads to any certificate of the chain is taken for a component's
(`Gateway.openSession_installed`).  For a chain of one certificate, and so for every generated
authority, this is the signing certificate.  For a longer chain it is not: whoever holds a certificate
from the authority that issued the gateway's own is taken for a component too
(`Gateway.openSession_rootSensor`).
-/

namespace DeviceAccess

/-! ### Ids of sessions -/

theorem SessionId.ofNumber_ne_componentId (n : Nat) : ofNumber n ≠ Gateway.componentId := by
  intro h
  have hdash : '-' ∈ (ofNumber n).toList := by
    unfold ofNumber
    simp
  rw [h] at hdash
  have hnone : '-' ∉ Gateway.componentId.toList := by decide
  exact hnone hdash

theorem SessionId.firstFree_ne_componentId (taken : String → Bool) (number tries : Nat) :
    firstFree taken number tries ≠ Gateway.componentId := by
  induction tries generalizing number with
  | zero => exact ofNumber_ne_componentId number
  | succ tries ih =>
      unfold firstFree
      split
      · exact ih (number + 1)
      · exact ofNumber_ne_componentId number

/-! ### The authority in force -/

/-- The chain in force was put there by an import or by an update that succeeded. -/
def AuthorityStore.Installed (tk : Toolkit) (s : AuthorityStore) : Prop :=
  ∃ (before : AuthorityStore) (w : World),
    (∃ key chain, (before.install tk w key chain).result = .ok () ∧
        s.chain = (before.install tk w key chain).store.chain) ∨
      ∃ now keyType, (before.update tk now w keyType).result = .ok () ∧
        s.chain = (before.update tk now w keyType).store.chain

/-- A chain in force is one certificate, or every certificate of it can be read. -/
theorem AuthorityStore.Installed.readable {tk : Toolkit} {s : AuthorityStore} (h : s.Installed tk) :
    (∃ certificate, s.chain = [certificate]) ∨
      ∀ text ∈ s.chain, ∃ certificates, tk.chain text = .ok certificates := by
  obtain ⟨before, w, ⟨key, chain, hok, hchain⟩ | ⟨now, keyType, hok, hchain⟩⟩ := h
  · obtain ⟨hinstalled, hread⟩ := chain_of_install hok
    rw [hchain, hinstalled]
    exact .inr hread
  · rw [hchain]
    exact .inl (chain_of_update hok)

/-- A toolkit that reads the certificates of a text as they stand there, and leaves it to a validator of
paths what they lead to. -/
structure Toolkit.JudgesBy {α : Type} (tk : Toolkit) (v : PathValidator α) : Prop where
  chain : tk.chain = CertificateText.chain
  isIssuedBy : tk.isIssuedBy = v.isIssuedBy

theorem Toolkit.standard_judgesBy : Toolkit.standard.JudgesBy CertificatePath.validator := ⟨rfl, rfl⟩

namespace Gateway

variable {tk : Toolkit} {g : Gateway}

/-! ### Openings -/

theorem keepSession_ne_componentId (g : Gateway) (clock : Nat) (session : Session) :
    (g.keepSession clock session).2 ≠ componentId := by
  unfold keepSession
  exact SessionId.firstFree_ne_componentId _ _ _

/-- The id of the components goes to the certificates of the gateway's own authority; the identity
source is asked about all others. -/
theorem openSession_eq_component_iff (tk : Toolkit) (g : Gateway) (now : Int) (clock : Nat)
    (source : IdentitySource) (text : String) :
    let a := g.openSession tk now clock source text
    (a.result = .ok componentId ↔ g.authority.isOwn tk now text = true) ∧
      (a.result ≠ .ok componentId → a.asked = [.certificate text]) := by
  intro a
  by_cases hown : g.authority.isOwn tk now text = true
  · have ha : a = ⟨g, [], .ok componentId⟩ := if_pos hown
    rw [ha]
    exact ⟨iff_of_true rfl hown, fun h => absurd rfl h⟩
  · have ha : a.result ≠ .ok componentId ∧ a.asked = [.certificate text] := by
      cases hactive : source.activeId text with
      | error e =>
          have heq : a = ⟨g, [.certificate text],
              .error (.authentication "Failed to verify certificate with cloud")⟩ := by
            show openSession tk now clock source g text = _
            unfold openSession
            rw [if_neg hown, hactive]
          rw [heq]
          exact ⟨nofun, rfl⟩
      | ok id? =>
          cases id? with
          | none =>
              have heq : a = ⟨g, [.certificate text],
                  .error (.authentication "Certificate isn't active")⟩ := by
                show openSession tk now clock source g text = _
                unfold openSession
                rw [if_neg hown, hactive]
              rw [heq]
              exact ⟨nofun, rfl⟩
          | some id =>
              rw [show a = _ from openSession_eq hown hactive clock]
              exact ⟨fun h => keepSession_ne_componentId _ _ _ (Except.ok.inj h), rfl⟩
    exact ⟨iff_of_false ha.1 hown, fun _ => ha.2⟩

theorem isOwn_iff {s : AuthorityStore} {signing : String} {others : List String}
    (h : s.chain = signing :: others) (now : Int) (text : String) :
    s.isOwn tk now text = true ↔ tk.isIssuedBy now text (String.join (signing :: others)) = true := by
  unfold AuthorityStore.isOwn
  rw [h]
  simp

/-- **Who is taken for a component.**  Let paths be judged by any validator that trusts each anchor for
itself, and let the chain in force be the one of an import or an update.  Opening a session yields the
components' id exactly for the certificates that the chain, read as one text, issued; about every other
certificate the identity source is asked.  If the chain is one certificate, these are the certificates
that the signing certificate issued.  If the chain consists of texts of whole lines, they are the
certificates that any certificate of the chain issued, provided that all of them can be authorities; so
only certificates of the signing authority are taken for components if and only if no other certificate
of the chain issued what the signing one did not. -/
theorem openSession_installed {α : Type} (tk : Toolkit) {v : PathValidator α} (hpaths : tk.JudgesBy v)
    (heach : v.TrustsEach) (g : Gateway) (hinstalled : g.authority.Installed tk) {signing : String}
    {others : List String} (hchain : g.authority.chain = signing :: others) (now : Int) (clock : Nat)
    (source : IdentitySource) (text : String) :
    let a := g.openSession tk now clock source text
    let issued := fun authority => tk.isIssuedBy now text authority = true
    let allAuthorities := ∀ c ∈ signing :: others, (v.anchors? c).isSome
    (a.result = .ok componentId ↔ issued (String.join (signing :: others))) ∧
    (a.result ≠ .ok componentId → a.asked = [.certificate text]) ∧
    (others = [] → (a.result = .ok componentId ↔ issued signing)) ∧
    ((∀ c ∈ signing :: others, Pem.EndsLine c) →
      (a.result = .ok componentId ↔ allAuthorities ∧ ∃ c ∈ signing :: others, issued c) ∧
      ((a.result = .ok componentId → issued signing) ↔
        (allAuthorities → (∃ c ∈ others, issued c) → issued signing))) := by
  intro a issued allAuthorities
  obtain ⟨hresult, hasked⟩ := openSession_eq_component_iff tk g now clock source text
  have hcomponent : a.result = .ok componentId ↔ issued (String.join (signing :: others)) :=
    hresult.trans (isOwn_iff hchain now text)
  have hissued : issued = fun authority => v.isIssuedBy now text authority = true := by
    show (fun authority => tk.isIssuedBy now text authority = true) = _
    rw [hpaths.isIssuedBy]
  have hsingle : others = [] → (a.result = .ok componentId ↔ issued signing) := by
    rintro rfl
    rwa [String.join_cons, String.join_nil, String.append_empty] at hcomponent
  refine ⟨hcomponent, hasked, hsingle, fun hlines => ?_⟩
  have hany : a.result = .ok componentId ↔ allAuthorities ∧ ∃ c ∈ signing :: others, issued c := by
    have hreadable := hinstalled.readable
    rw [hchain] at hreadable
    rcases hreadable with ⟨certificate, hone⟩ | hread
    · obtain ⟨rfl, rfl⟩ := List.cons.inj hone
      rw [hsingle rfl, hissued]
      simp only [allAuthorities, List.mem_singleton, forall_eq, exists_eq_left]
      exact (and_iff_right_of_imp PathValidator.isSome_anchors?_of_isIssuedBy).symm
    · rw [hpaths.chain] at hread
      rw [hcomponent, hissued]
      exact PathValidator.isIssuedBy_join_iff heach hlines hread
  refine ⟨hany, ?_⟩
  rw [hany, List.exists_mem_cons_iff]
  constructor
  · exact fun h hall hothers => h ⟨hall, .inr hothers⟩
  · rintro h ⟨hall, hsigning | hothers⟩
    · exact hsigning
    · exact h hall hothers

/-- A new gateway into which a key and a chain were imported. -/
def withImport (key : String) (chain : List String) : Gateway × Except Fault Unit :=
  (new ⟨.empty, .ofSeed []⟩ ⟨"/work"⟩ LeafSettings.standard).importAuthority .standard 0 ⟨key, chain⟩

theorem settle_authority (tk : Toolkit) (g : Gateway) (now : Int) (o : AuthorityOutcome) :
    (g.settle tk now o).1.authority = o.store ∧ (g.settle tk now o).2 = o.result := by
  unfold settle
  cases o.changed with
  | none => exact ⟨rfl, rfl⟩
  | some chain => exact ⟨rfl, rfl⟩

theorem withImport_spec {key : String} {chain : List String} {m : AuthorityMaterial}
    (h : AuthorityStore.checkImport .standard key chain = .ok m) :
    (withImport key chain).2 = .ok () ∧ (withImport key chain).1.authority.Installed .standard ∧
      (withImport key chain).1.authority.chain = chain := by
  obtain ⟨hauthority, hresult⟩ := settle_authority .standard
    (new ⟨.empty, .ofSeed []⟩ ⟨"/work"⟩ LeafSettings.standard) 0
    ((AuthorityStore.ofDirectory ⟨"/work"⟩).install .standard ⟨.empty, .ofSeed []⟩ key chain)
  have hok : ((AuthorityStore.ofDirectory ⟨"/work"⟩).install .standard ⟨.empty, .ofSeed []⟩ key
      chain).result = .ok () := by
    rw [AuthorityStore.install_of_checkImport h]
    rfl
  unfold withImport importAuthority
  refine ⟨hresult.trans hok, ?_, ?_⟩
  · exact ⟨_, _, .inl ⟨key, chain, hok, congrArg AuthorityStore.chain hauthority⟩⟩
  · exact (congrArg AuthorityStore.chain hauthority).trans (AuthorityStore.chain_of_install hok).1

end Gateway

/-! ### A sensor of the root authority

A root authority issued the certificate of the gateway's authority, and one of a sensor. -/

namespace RootSensor

/-- The bytes of words of 32 bytes each. -/
def ofWords (words : List Nat) : Bytes := words.flatMap (Bytes.ofNat 32)

/-- The key of the gateway's authority. -/
def gatewayKey : Rsa.PrivateKey :=
  let p := Bytes.toNat (ofWords [
    0xfe7bf09cbd4ce5d8660c1cab1de3f04c9c7200814f9d4beba93cf4f8ab6cb279,
    0x292fac3ad6442c5afd25514f214a2e27c333a16fcd709b1e3eb62fbaf9075996,
    0x85b20d26e14ed611c27d998ffcdaf6ce2aeb22398a2307c0146fe831d0189559,
    0x1e3d9877994b0ab667d73207ce320226b8ebafed462ac96c663e2eba268f4cad])
  let q := Bytes.toNat (ofWords [
    0xe7671e918f46ae12f309504a3f25fcc42aeb702cd58689223d3965b3f23c88c7,
    0x7a4cc7ff360827e05b82481773e8e9e3fd96b4b2fdce3ccc413600fb178e572e,
    0x182fa1d64e14e920ebd4294332b34150a749f4c191925f33b51b44b0427a31fc,
    0x26dce4963700610c82ce749902f9ab458242a135616ee9d91ce65d10e7f7f20f])
  let secret := Bytes.toNat (ofWords [
    0x0732eda90f27f2884092ae8ba433c02126c1905319dc4b6631acde648b581513,
    0xa3457275fce20a784e34139fd895c1203efe8ab31e419d497bb51b066d31021b,
    0x8a215d8e56835d4b79d68ffc9857c51eef3a4c712e7e757e214d154094470302,
    0x67b17a636a6ce23269236753d633cfa84b1107191d4606e2e3b85c9193be8831,
    0xb9db97510a5d68bf291ae67771bed1b4a22a174460a3b9a77cd6fa0894aab27e,
    0xe7e839b7b3bbbc59891e9584821fcb8aaf4f78e575ad3a395e7ca8ecb418574d,
    0xa9bc61016df43957e9613fb6486ebe5be9f9c528bc3c0d0d91224990663f79bd,
    0x0f1829c9c89ce4a792794a3aa15256d0a1be9775b086e3de88d2c29ccae09c39])
  ⟨p * q, Rsa.standardExponent, secret, p, q⟩

/-- The bits of the root authority's key. -/
def rootKeyBits : Bytes :=
  Der.sequence [Der.element Der.integerTag (0 :: ofWords [
    0xaa26388517f91b13c64b136732dccd418a6c6b2540e1a07da12df5fb5a28a836,
    0x50aeefb7989dda1176566d0a23aa8706eee5e30451d40500d7e1f9de86171b74,
    0x94cffdfc6a818991e8c9a3db19cb1754288cde2f78c24e84e9dd3d4d37a5e182,
    0x774e3c3c09b0c7a3cbddd113cd8680356aecc58ef52806c85516007cad01c85d,
    0x3d7e1662928dc186edf3e587a23d0380ffbd413305a6b164c4de3670016a61c1,
    0xbdfa8784e6fa262627bd5501b8978e74b382aa05192af99f8ad50035977b5e27,
    0x7c720a079fdcaf5c6e764acedbbbedc58e92633f90eb5f8d23580b77b4c5be71,
    0xd8b319ec700e94020de1a096eaff0706f33f3a85884fc1085ace213620676759]),
    Der.nat Rsa.standardExponent]

/-- The bits of the sensor's key. -/
def sensorKeyBits : Bytes :=
  ofWords [0xf07b41f8237c96f33b1bdb6e2d034d722844393fda8258f206b3641ac7ad6c1d]

/-- A name that is one common name. -/
def nameOf (name : String) : Bytes :=
  Issue.writeName [Issue.namePart Certificate.commonNameId name]

/-- What a certificate of the root authority from 1970 to 2049 certifies. -/
def signedPart (holder : String) (keyName keyBits constraints : Bytes) : Bytes :=
  Der.sequence [
    Der.element (Der.nestedTag 0) (Der.nat 2), Der.nat 1,
    Der.element Der.sequenceTag (Signature.rsa .sha256),
    Der.element Der.sequenceTag (nameOf "Root"),
    Der.sequence [
      Der.element Der.utcTimeTag (Bytes.ofText "700101000000Z"),
      Der.element Der.utcTimeTag (Bytes.ofText "491231235959Z")],
    Der.element Der.sequenceTag (nameOf holder),
    Der.sequence [Der.element Der.sequenceTag keyName, Der.bitString keyBits],
    Der.element (Der.nestedTag 3) (Der.sequence [
      Issue.writeExtension Certificate.constraintsExtension true constraints])]

/-- A certificate with its signature. -/
def certificate (signed signature : Bytes) : Bytes :=
  Der.sequence [signed, Der.element Der.sequenceTag (Signature.rsa .sha256),
    Der.bitString signature]

/-- The constraints of an authority. -/
def authorityConstraints : Bytes := Der.sequence [Der.boolean true]

/-- The certificate that the root authority issued itself. -/
def rootCertificate : Bytes :=
  certificate (signedPart "Root" Signature.rsaKey rootKeyBits authorityConstraints) (ofWords [
    0x43137c0ed8344121e97ae906210386101a02e8808d14211d18896673ad13e58a,
    0x0d7f4e0e9583ed789d7fad33c625091c9e3b50972b5e84d2413b5177355d7193,
    0x4bf5db984693a585419982d0c4bfec6c2186f7109e64c3bbaaa4516aab8bfa49,
    0xc6f7adaacec74aaa3d9433b3c3ecf4b726b320058ed0ebd91814a78071053d66,
    0xb3eaa6593aedc2bbe2aa97c68faa7c89db05805b736f8fc197ac18078e441d9d,
    0x595fa6c1db96f1bac82c8bcda52d0f835600b182410af7a0bd05c932623e180a,
    0xbfcb34969033964358e63c488a03184b6b3fcb2a911442bd69f1fd2d99454fbd,
    0xfb7801d9d87e2b701e89d517ba6388bbb5a8ecea6b87db20e88375b11c78090f])

/-- The certificate of the gateway's authority. -/
def gatewayCertificate : Bytes :=
  certificate
    (signedPart "Gateway" Signature.rsaKey gatewayKey.publicKey.write authorityConstraints) (ofWords [
    0x3c750160beade76c773f415e0b064dd46f4dbac8b4ca4b9d83d3677d8294027e,
    0xc6b2848072a8c7025bf8e65b7f4df9dbf5283175fadd1c519130d323a9437b39,
    0xd3faeb09bd1ca14dc60f4614f9d7cddd38be4476a04eecb8113f360bda3c98be,
    0x92ac12bc45e337919d1d6807e33dea12b2c2a5341a6558aae4f815e8e404427f,
    0x9a2deb21a11e61fcc9474529669531b5af3b9277feccf976c38361fb51f8a685,
    0xb81f463d36d123a4ed5ba56a2291abf709160f91f47f15d1df841ee7d47e47f8,
    0xaac090ba2decf4a3f72067005492fa5b4f7717891ba9011e57cb1b51623ffa82,
    0x83cceeab7d298b3c033c85b943e7c6f38962b1b7e56f4813e19b5252d17e2d3a])

/-- The sensor's certificate as it is read. -/
def sensor : Certificate where
  signed := signedPart "Sensor" Signature.edwards sensorKeyBits (Der.sequence [])
  version := some 2
  innerName := Signature.rsa .sha256
  issuer := nameOf "Root"
  notBefore := 0
  notAfter := 2524607999
  subject := nameOf "Sensor"
  keyName := Signature.edwards
  keyBits := sensorKeyBits
  hasUniqueIds := false
  extensions := some [⟨Certificate.constraintsExtension, true, Der.sequence []⟩]
  signatureName := Signature.rsa .sha256
  signature := ofWords [
    0x6a95f4b9ef8085d457ba029f7594d3dfaf2f69c31207e385c11518b32d9debf3,
    0x02dfa543a085aa29dc4525e1818863d446562199b710bf9b16307f29648c1d31,
    0x22f579591b469846b6ea7c1fff5a14d4c13a4d6d69798f54c65a7a52dc059b34,
    0x61b627939f373a91d2d029c5f25ff54aa9a1f5cf2f335a7c466f72debed0a83b,
    0x24ccaa9c1f995c299ca15456e12ed03441647efd4ac838e2376e800b3793b750,
    0xb826a17c2321f2efe70cd42fcb5a256eab2603465dd2234d1499daace4c111c7,
    0x349dfeab3c1283e1d0250e7cf1a234424b7336b4c9d76942837310c5adf9f0db,
    0x6e16694969f8310b43cef8913cadd8bce06038a3ac4969d15afd85d235f4fa26]
  hasMore := false

/-- The sensor's certificate. -/
def sensorCertificate : Bytes := certificate sensor.signed sensor.signature

theorem read?_sensorCertificate : Certificate.read? sensorCertificate = some sensor := by
  decide +kernel

/-- The root authority, trusted. -/
def rootAnchor : Anchor := ⟨nameOf "Root", Signature.rsaKey, rootKeyBits⟩

/-- The gateway's authority, trusted. -/
def gatewayAnchor : Anchor := ⟨nameOf "Gateway", Signature.rsaKey, gatewayKey.publicKey.write⟩

theorem anchor?_rootCertificate :
    CertificatePath.validator.anchor? rootCertificate = some rootAnchor := by
  decide +kernel

theorem anchor?_gatewayCertificate :
    CertificatePath.validator.anchor? gatewayCertificate = some gatewayAnchor := by
  decide +kernel

theorem read?_gatewayKey :
    PrivateKey.read? (PrivateKey.write (.rsa gatewayKey)) = some (.rsa gatewayKey) := by
  decide +kernel

/-- The text of the gateway's key. -/
def keyText : String := PrivateKey.toPem (.rsa gatewayKey)

/-- The chain of the gateway's authority, the signing certificate first. -/
def chain : List String := [Pem.ofCertificate gatewayCertificate, Pem.ofCertificate rootCertificate]

theorem read_toPem {k : PrivateKey} (h : PrivateKey.read? k.write = some k) :
    KeyText.read k.toPem = .ok k := by
  unfold KeyText.read PrivateKey.ofPem? PrivateKey.toPem
  rw [Pem.key?_write (by decide) (by decide), Option.bind_eq_bind, Option.bind_some, h]

theorem exists_certificate_of_mem_chain {text : String} (h : text ∈ chain) :
    ∃ b, text = Pem.ofCertificate b := by
  simp only [chain, List.mem_cons, List.not_mem_nil, or_false] at h
  rcases h with h | h
  · exact ⟨_, h⟩
  · exact ⟨_, h⟩

theorem certifiedBy_toPem {k : PrivateKey} (hk : PrivateKey.read? k.write = some k) {b : Bytes}
    {a : Anchor} (ha : CertificatePath.validator.anchor? b = some a) (hbits : a.keyBits = k.publicBits) :
    KeyText.certifiedBy k.toPem (Pem.ofCertificate b) = .ok true := by
  obtain ⟨c, hc, rfl⟩ := Anchor.eq_of_anchor? ha
  unfold KeyText.certifiedBy
  rw [read_toPem hk, CertificateText.chain_ofCertificate]
  simp only at hbits
  simp [bind, Except.bind, Except.mapError, pure, Except.pure, hc, hbits]

theorem certifiedBy_keyText :
    KeyText.certifiedBy keyText (Pem.ofCertificate gatewayCertificate) = .ok true :=
  certifiedBy_toPem read?_gatewayKey anchor?_gatewayCertificate rfl

theorem checkImport_chain : AuthorityStore.checkImport .standard keyText chain =
    .ok ⟨keyText, Pem.ofCertificate gatewayCertificate, [Pem.ofCertificate rootCertificate]⟩ := by
  refine AuthorityStore.checkImport_eq_ok_iff.2 ⟨rfl, rfl, ⟨some .rsa2048, ?_⟩, ?_, certifiedBy_keyText⟩
  · show (KeyText.read (PrivateKey.toPem (.rsa gatewayKey))).map PrivateKey.keyType? = _
    rw [read_toPem read?_gatewayKey]
    rfl
  · intro text htext
    obtain ⟨b, rfl⟩ := exists_certificate_of_mem_chain htext
    exact ⟨[b], CertificateText.chain_ofCertificate b⟩

/-- The sensor's text is issued by the root authority alone. -/
theorem isIssuedBy_sensor :
    CertificatePath.isIssuedBy 1800000000 (Pem.ofCertificate sensorCertificate)
        (Pem.ofCertificate rootCertificate) = true ∧
      CertificatePath.isIssuedBy 1800000000 (Pem.ofCertificate sensorCertificate)
        (Pem.ofCertificate gatewayCertificate) = false := by
  have hstrict : sensor.isStrict = true := by decide +kernel
  have halone : CertificatePath.acceptsAlone 1800000000 true 0 sensor = true := by decide +kernel
  have hsigned : CertificatePath.isSigned rootAnchor.keyName rootAnchor.keyBits [sensor] = true := by
    decide +kernel
  have hissuer : gatewayAnchor.subject ≠ sensor.issuer := by decide +kernel
  have hread := CertificateText.chain_ofCertificate sensorCertificate
  constructor
  · exact PathValidator.isIssuedBy_iff.2 ⟨_, _, _, hread,
      PathValidator.anchors?_ofCertificate anchor?_rootCertificate,
      (CertificatePath.isIssued_nil_iff read?_sensorCertificate hstrict).2 ⟨halone, rfl, hsigned⟩⟩
  · rw [← Bool.not_eq_true, CertificatePath.isIssuedBy, PathValidator.isIssuedBy_iff]
    rintro ⟨first, rest, anchors, hcertificates, hanchors, hissued⟩
    obtain ⟨rfl, rfl⟩ := List.cons.inj (Except.ok.inj (hread.symm.trans hcertificates))
    obtain rfl := Option.some.inj
      ((PathValidator.anchors?_ofCertificate anchor?_gatewayCertificate).symm.trans hanchors)
    exact hissuer
      ((CertificatePath.isIssued_nil_iff read?_sensorCertificate hstrict).1 hissued).2.1

theorem endsLine_of_mem_chain {text : String} (h : text ∈ chain) : Pem.EndsLine text := by
  obtain ⟨b, rfl⟩ := exists_certificate_of_mem_chain h
  exact Pem.endsLine_ofCertificate b

theorem isSome_anchors?_of_mem_chain {text : String} (h : text ∈ chain) :
    (CertificatePath.validator.anchors? text).isSome := by
  simp only [chain, List.mem_cons, List.not_mem_nil, or_false] at h
  rcases h with rfl | rfl
  · rw [PathValidator.anchors?_ofCertificate anchor?_gatewayCertificate]
    rfl
  · rw [PathValidator.anchors?_ofCertificate anchor?_rootCertificate]
    rfl

/-- An identity source that knows nobody. -/
def strangers : IdentitySource := ⟨fun _ => .ok none, fun _ _ => .ok false⟩

end RootSensor

namespace Gateway

open RootSensor

/-- The sensor is taken for a component, though the signing authority did not issue its
certificate. -/
theorem openSession_installed_sensor :
    let g := (withImport keyText chain).1
    g.authority.Installed .standard ∧ g.authority.chain = chain ∧
      (∀ text ∈ chain, Pem.EndsLine text) ∧
      ¬((g.openSession .standard 1800000000 0 strangers
            (Pem.ofCertificate sensorCertificate)).result = .ok componentId →
          CertificatePath.isIssuedBy 1800000000 (Pem.ofCertificate sensorCertificate)
            (Pem.ofCertificate gatewayCertificate) = true) := by
  obtain ⟨-, hinstalled, hchain⟩ := withImport_spec checkImport_chain
  have hlines : ∀ text ∈ chain, Pem.EndsLine text := fun _ => endsLine_of_mem_chain
  refine ⟨hinstalled, hchain, hlines, fun hpromise => ?_⟩
  obtain ⟨hroot, hgateway⟩ := isIssuedBy_sensor
  have hissued := ((openSession_installed _ Toolkit.standard_judgesBy
    CertificatePath.validator_trustsEach _ hinstalled hchain 1800000000 0 strangers
    (Pem.ofCertificate sensorCertificate)).2.2.2 hlines).2.1 hpromise
      (fun _ => isSome_anchors?_of_mem_chain) ⟨_, List.mem_singleton_self _, hroot⟩
  exact Bool.false_ne_true (hgateway.symm.trans hissued)

/-- A certificate that only the root authority issued opens the components' session, and nobody is
asked about it. -/
theorem openSession_rootSensor :
    let g := (withImport keyText chain).1
    let a := g.openSession .standard 1800000000 0 strangers (Pem.ofCertificate sensorCertificate)
    (withImport keyText chain).2 = .ok () ∧
      g.authority.chain = [Pem.ofCertificate gatewayCertificate, Pem.ofCertificate rootCertificate] ∧
      CertificatePath.isIssuedBy 1800000000 (Pem.ofCertificate sensorCertificate)
        (Pem.ofCertificate gatewayCertificate) = false ∧
      a.result = .ok componentId := by
  obtain ⟨hok, -, hchain⟩ := withImport_spec checkImport_chain
  obtain ⟨hroot, hgateway⟩ := isIssuedBy_sensor
  refine ⟨hok, hchain, hgateway, ?_⟩
  refine (openSession_eq_component_iff _ _ 1800000000 0 strangers _).1.2 ((isOwn_iff hchain _ _).2 ?_)
  refine (PathValidator.isIssuedBy_join_iff CertificatePath.validator_trustsEach
    (fun _ => endsLine_of_mem_chain) ?_).2
    ⟨fun _ => isSome_anchors?_of_mem_chain, _, List.mem_cons_of_mem _ (List.mem_singleton_self _), hroot⟩
  intro text htext
  obtain ⟨b, rfl⟩ := exists_certificate_of_mem_chain htext
  exact ⟨[b], CertificateText.chain_ofCertificate b⟩

end Gateway

end DeviceAccess
