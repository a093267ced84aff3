import Centrald.Common.Https
import Mathlib.Tactic.SplitIfs

/-!
# `Centrald.Proofs.Https`: where a followed redirect may lead

No followed redirect should reach an internal address. A literal
address does not, since the check covers every internal one
(`nonPublic_of_internal`). A name is looked up again at the connection,
and nothing ties that answer to the one that was checked. So a chain is
safe exactly if no followed redirect is rebound
(`followed_reach_no_internal_iff`).
-/

set_option autoImplicit false

namespace Centrald.Proofs

open Common

/-- Loopback, private, link-local and unspecified addresses. -/
def InternalV4 (ip : Ipv4Addr) : Prop :=
  ip.isLoopback ∨ ip.isPrivate ∨ ip.isLinkLocal ∨ ip.isUnspecified

/-- The addresses no redirect should reach. -/
def InternalIp : IpAddr → Prop
  | .v4 ip => InternalV4 ip
  | .v6 ip =>
    ip.isLoopback ∨ ip.isUniqueLocal ∨ ip.isUnicastLinkLocal ∨ ip.isUnspecified
      ∨ ∃ mapped, ip.toIpv4Mapped = some mapped ∧ InternalV4 mapped

theorem nonPublic_of_internalV4 {ip : Ipv4Addr} (h : InternalV4 ip) :
    ipv4IsNonPublic ip = true := by
  simp only [ipv4IsNonPublic, Bool.or_eq_true]
  obtain h | h | h | h := h <;> simp [h]

/-- A mapped address starts with zeros, so it is in none of the ranges
of IPv6. -/
theorem toIpv4Mapped_eq_none {ip : Ipv6Addr} (h : ip.isLoopback ∨ ip.isUniqueLocal
    ∨ ip.isUnicastLinkLocal ∨ ip.isUnspecified) : ip.toIpv4Mapped = none := by
  rw [Ipv6Addr.toIpv4Mapped, if_neg]
  intro hmapped
  simp only [List.cons.injEq] at hmapped
  obtain ⟨h0, -, -, -, -, h5, -⟩ := hmapped
  simp only [Ipv6Addr.isLoopback, Ipv6Addr.isUniqueLocal, Ipv6Addr.isUnicastLinkLocal,
    Ipv6Addr.isUnspecified, beq_iff_eq, h0] at h
  obtain rfl | h | h | rfl := h
  · exact absurd h5 (by decide)
  · exact absurd h (by decide)
  · exact absurd h (by decide)
  · exact absurd h5 (by decide)

/-- The check covers every internal address. -/
theorem nonPublic_of_internal {ip : IpAddr} (h : InternalIp ip) : ipIsNonPublic ip = true := by
  cases ip with
  | v4 ip => exact nonPublic_of_internalV4 h
  | v6 ip =>
    rw [ipIsNonPublic]
    obtain h | h | h | h | ⟨mapped, hmapped, h⟩ := h
    · simp [toIpv4Mapped_eq_none (.inl h), h]
    · simp [toIpv4Mapped_eq_none (.inr (.inl h)), h]
    · simp [toIpv4Mapped_eq_none (.inr (.inr (.inl h))), h]
    · simp [toIpv4Mapped_eq_none (.inr (.inr (.inr h))), h]
    · rw [hmapped]
      exact nonPublic_of_internalV4 h

/-- Every followed redirect passed the check. -/
theorem public_of_mem_followed {redirects : List Redirect} {previous : Nat} {r : Redirect}
    (h : r ∈ followed previous redirects) : hostIsNonPublicLiteral r = false := by
  induction redirects generalizing previous with
  | nil => cases h
  | cons first rest ih =>
    simp only [followed, redirectPolicy, httpsRedirectIsAllowed] at h
    grind

/-- A name is rebound if the connection's lookup returns an internal
address that the check's lookup did not. -/
def Rebound (r : Redirect) : Prop :=
  ∃ name ip, r.url.host = some (.domain name) ∧ ip ∈ r.connected ∧ InternalIp ip
    ∧ ip ∉ r.checked.getD []

/-- In every chain, the followed redirects lead to no internal address
exactly if none of them is rebound. -/
theorem followed_reach_no_internal_iff (redirects : List Redirect) :
    (∀ r ∈ followed 1 redirects, ∀ ip ∈ r.addresses, ¬ InternalIp ip)
      ↔ ∀ r ∈ followed 1 redirects, ¬ Rebound r := by
  refine forall₂_congr fun r hr => ⟨?_, fun hbound ip hip hinternal => ?_⟩
  · rintro hsafe ⟨name, ip, hhost, hip, hinternal, -⟩
    exact hsafe ip (by rwa [Redirect.addresses, hhost]) hinternal
  · have hpublic := public_of_mem_followed hr
    have hnot := nonPublic_of_internal hinternal
    unfold Redirect.addresses at hip
    unfold hostIsNonPublicLiteral at hpublic
    -- a literal was checked itself; a name resolves to an address that was checked
    split at hip
    · grind
    · rename_i name hhost
      refine hbound ⟨name, ip, hhost, hip, hinternal, fun hchecked => ?_⟩
      cases haddrs : r.checked <;> simp_all
    · cases hip

/-- The name is public when it is checked and the loopback address when
the library connects. -/
theorem rebound_redirect_reaches_loopback :
    ∃ r : Redirect, r ∈ followed 1 [r] ∧ ∃ ip ∈ r.addresses, InternalIp ip := by
  let r : Redirect :=
    ⟨⟨"https", some (.domain "feed.example")⟩, some [.v4 ⟨8, 8, 8, 8⟩], [.v4 ⟨127, 0, 0, 1⟩]⟩
  exact ⟨r, .head _, .v4 ⟨127, 0, 0, 1⟩, .head _, .inl (by decide)⟩

end Centrald.Proofs
