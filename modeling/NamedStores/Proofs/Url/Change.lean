/-
Changing a URL keeps it settled: a path that is a number, pairs put into the query, and
credentials, which are encoded on the way in. So the text of the changed URL reads back too.
-/
import NamedStores.Proofs.Url.Form
import NamedStores.Proofs.Url.RoundTrip

namespace NamedStores.Url

theorem host?_eq_some {u : Url} {a : Authority} :
    u.host? = some a ↔ u.authority = some a ∧ a.host ≠ [] := by
  rw [host?, Option.filter_eq_some_iff]
  simp

theorem withIndexPath_eq {u : Url} {a : Authority} (authority : u.authority = some a) (n : Int) :
    u.withIndexPath n = { u with path := '/' :: (toString n).toList } := by
  simp [withIndexPath, isOpaque, authority]

namespace Settled

variable {u : Url}

theorem withAuthority {a : Authority} (h : u.Settled) (ha : a.Settled) :
    ({ u with authority := some a } : Url).Settled :=
  ⟨h.scheme, h.nonweb, ⟨a, rfl, ha⟩, h.unguarded, h.path, h.query, h.fragment⟩

theorem of_authority {a : Authority} (h : u.Settled) (found : u.authority = some a) :
    a.Settled := by
  obtain ⟨b, same, settled⟩ := h.authority
  cases found.symm.trans same
  exact settled

theorem withUserName? {v : Url} {name : String} (h : u.Settled)
    (put : u.withUserName? name = some v) :
    v.Settled ∧ v.scheme = u.scheme ∧ v.path = u.path := by
  obtain ⟨a, host, rfl⟩ := Option.map_eq_some_iff.mp put
  obtain ⟨found, named⟩ := host?_eq_some.mp host
  have ha := h.of_authority found
  exact ⟨h.withAuthority ⟨Percent.encode_settled Percent.isUserInfo_admits _, ha.password, ha.host,
    ha.port, fun empty => absurd empty named⟩, rfl, rfl⟩

theorem withPassword? {v : Url} {password : String} (h : u.Settled)
    (put : u.withPassword? password = some v) :
    v.Settled ∧ v.scheme = u.scheme ∧ v.path = u.path := by
  obtain ⟨a, host, rfl⟩ := Option.map_eq_some_iff.mp put
  obtain ⟨found, named⟩ := host?_eq_some.mp host
  have ha := h.of_authority found
  refine ⟨h.withAuthority ⟨ha.userName, fun p hp => ?_, ha.host, ha.port,
    fun empty => absurd empty named⟩, rfl, rfl⟩
  have encoded : Percent.Settled Percent.isUserInfo
      (Percent.encode Percent.isUserInfo password.toList) :=
    Percent.encode_settled Percent.isUserInfo_admits _
  dsimp only at hp
  split at hp
  · cases hp
  · rename_i nonempty
    cases hp
    exact ⟨by simpa using nonempty, encoded⟩

theorem withIndexPath (h : u.Settled) {n : Int} (hn : 0 ≤ n) :
    (u.withIndexPath n).Settled ∧ (u.withIndexPath n).path = '/' :: (toString n).toList := by
  obtain ⟨a, authority, -⟩ := h.authority
  have path : (u.withIndexPath n).path = '/' :: (toString n).toList := by
    rw [withIndexPath_eq authority]
  have digits : Percent.Settled Percent.isPath (toString n).toList := by
    rw [Integer.toList_toString hn]
    exact Integer.forall_mem_toDigits (by decide) n.toNat
  have isPath : IsPath (u.withIndexPath n).path := by
    rw [path]
    refine ⟨fun c hc => ?_, fun c hc => by cases hc; rfl⟩
    rcases List.mem_cons.mp hc with rfl | inside
    · decide
    · exact digits c inside
  exact ⟨⟨h.scheme, h.nonweb, h.authority, h.unguarded, isPath, h.query, h.fragment⟩, path⟩

theorem withQueryPairs (h : u.Settled) (pairs : List (String × String)) :
    (u.withQueryPairs pairs).Settled := by
  refine ⟨h.scheme, h.nonweb, h.authority, h.unguarded, h.path, fun q hq => ?_, h.fragment⟩
  cases hq
  exact Form.toQuery_settled pairs

end Settled

end NamedStores.Url
