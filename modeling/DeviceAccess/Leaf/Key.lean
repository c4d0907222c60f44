import DeviceAccess.Certificate.Kind
import DeviceAccess.Ordered

/-!
# Names of subscriptions

A subscription is known by the service that it belongs to and the kind of its certificates; there is
at most one of each name.  Names are ordered by service first.
-/

namespace DeviceAccess

/-- The name of a subscription. -/
structure SubscriptionKey where
  service : String
  kind : CertificateKind
  deriving DecidableEq, Repr

/-- Kinds are ordered by their names. -/
def CertificateKind.order : CertificateKind → CertificateKind → Ordering := compareOn name

instance : Ord CertificateKind := ⟨CertificateKind.order⟩

instance : Std.TransOrd CertificateKind :=
  inferInstanceAs (Std.TransCmp (compareOn CertificateKind.name))

instance : Std.LawfulEqOrd CertificateKind where
  eq_of_compare {a b} h := by
    have h : compare a.name b.name = .eq := h
    have h := Std.LawfulEqOrd.eq_of_compare h
    cases a <;> cases b <;> simp_all [CertificateKind.name]

namespace SubscriptionKey

/-- Names are ordered by service, then by kind. -/
def order : SubscriptionKey → SubscriptionKey → Ordering :=
  compareLex (compareOn service) (compareOn kind)

instance : Ord SubscriptionKey := ⟨order⟩

instance : Std.TransOrd SubscriptionKey :=
  inferInstanceAs (Std.TransCmp (compareLex (compareOn service) (compareOn kind)))

instance : Std.LawfulEqOrd SubscriptionKey where
  eq_of_compare {a b} h := by
    have h : order a b = .eq := h
    simp only [order, compareLex_eq_eq, compareOn] at h
    obtain ⟨h1, h2⟩ := h
    have h1 := Std.LawfulEqOrd.eq_of_compare h1
    have h2 := Std.LawfulEqOrd.eq_of_compare h2
    cases a
    cases b
    simp_all

end SubscriptionKey

end DeviceAccess
