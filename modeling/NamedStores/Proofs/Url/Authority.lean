/-
An authority reads back as written. What reading leaves of it is settled: nothing in it is left
to encode, and none of the characters at which an authority is split stands where it would
split it anew.
-/
import NamedStores.Proofs.Text.Percent
import NamedStores.Proofs.Text.Split
import NamedStores.Proofs.Url.Ipv6
import NamedStores.Url.Reader

namespace NamedStores

namespace Url

/-! ## Hosts -/

/-- A host as reading leaves it: an IPv6 address in brackets, or a name with nothing in it that
is refused or encoded. -/
inductive IsHost : List Char → Prop where
  | bracketed (ns : List Nat) : Ipv6.Fits ns → ns.length = 8 →
      IsHost ('[' :: Ipv6.toChars ns ++ [']'])
  | name (cs : List Char) : Percent.Settled Percent.isControl cs →
      (∀ c ∈ cs, isForbiddenInHost c = false) → IsHost cs

theorem readHost_isHost {cs host : List Char} (h : readHost cs = .ok host) : IsHost host := by
  unfold readHost at h
  split at h
  · split at h
    · cases h
    · split at h
      · rename_i inner _ _ ns read
        obtain ⟨fits, eight⟩ := Ipv6.ofChars?_fits read
        cases h
        exact .bracketed ns fits eight
      · cases h
  · split at h
    · cases h
    · rename_i allowed
      cases h
      refine .name _ (Percent.encode_settled Percent.isControl_admits cs) fun c hc => ?_
      rcases Percent.mem_encode hc with ⟨stood, -⟩ | written
      · exact Bool.eq_false_iff.mpr fun forbidden =>
          allowed (List.any_eq_true.mpr ⟨c, stood, forbidden⟩)
      · simpa using written.all (p := fun c => !isForbiddenInHost c) (by decide) (by decide)

namespace IsHost

variable {host : List Char}

theorem read (h : IsHost host) : readHost host = .ok host := by
  cases h with
  | bracketed ns fits eight =>
    have inner : (Ipv6.toChars ns ++ [']']).dropLast = Ipv6.toChars ns := List.dropLast_concat
    have closed : ('[' :: Ipv6.toChars ns ++ [']']).getLast? = some ']' :=
      List.getLast?_concat
    rw [List.cons_append] at closed ⊢
    simp only [readHost, closed, inner, Ipv6.ofChars?_toChars fits eight]
    rfl
  | name _ settled allowed =>
    have none_refused : host.any isForbiddenInHost = false := by
      rw [List.any_eq_false]
      intro c hc
      rw [allowed c hc]
      decide
    unfold readHost
    split
    · have bracket := allowed '[' List.mem_cons_self
      exact absurd bracket (by decide)
    · rw [if_neg (by simp [none_refused]), settled.encode_eq]

/-- No character of a host ends the authority or its user information. -/
theorem plain (h : IsHost host) {c : Char} (hc : c ∈ host) :
    0x20 < c.toNat ∧ c ≠ '/' ∧ c ≠ '@' ∧ c ≠ '?' ∧ c ≠ '#' := by
  cases h with
  | bracketed ns fits eight =>
    simp only [List.cons_append, List.mem_cons, List.mem_append, List.not_mem_nil, or_false] at hc
    rcases hc with rfl | inner | rfl
    · decide
    · rcases Ipv6.mem_toChars inner with rfl | ⟨k, hk, rfl⟩
      · decide
      · have all : ∀ k < 16, 0x20 < (Nat.digitChar k).toNat ∧ Nat.digitChar k ≠ '/' ∧
            Nat.digitChar k ≠ '@' ∧ Nat.digitChar k ≠ '?' ∧ Nat.digitChar k ≠ '#' := by decide
        exact all k hk
    · decide
  | name _ settled allowed =>
    have forbidden := allowed c hc
    have control := settled c hc
    refine ⟨?_, ?_, ?_, ?_, ?_⟩
    · have space : c ≠ ' ' := by rintro rfl; exact absurd forbidden (by decide)
      have code : c.toNat ≠ 0x20 := fun e => space (Char.toNat_inj.mp e)
      simp only [Percent.isControl, Bool.or_eq_false_iff, decide_eq_false_iff_not] at control
      omega
    all_goals
      rintro rfl
      exact absurd forbidden (by decide)

end IsHost

/-! ### Where the host ends -/

theorem breakHost_plain {inside : Bool} {c : Char} (colon : c = ':' → inside = true)
    (opening : c ≠ '[') (closing : c ≠ ']') (cs : List Char) :
    breakHost inside (c :: cs) = (c :: (breakHost inside cs).1, (breakHost inside cs).2) := by
  have goes_on : ¬(c = ':' ∧ (!inside) = true) := by
    rintro ⟨found, outside⟩
    rw [colon found] at outside
    cases outside
  rw [breakHost, if_neg goes_on, if_neg opening, if_neg closing]

theorem breakHost_outside {cs : List Char} (h : ∀ c ∈ cs, c ≠ ':' ∧ c ≠ '[' ∧ c ≠ ']')
    {rest : List Char} (hr : ∀ c ∈ rest.head?, c = ':') :
    breakHost false (cs ++ rest) = (cs, rest) := by
  induction cs with
  | nil =>
    cases rest with
    | nil => rfl
    | cons c rest =>
      have colon : c = ':' := hr c rfl
      subst colon
      rfl
  | cons c cs ih =>
    obtain ⟨colon, opening, closing⟩ := h c List.mem_cons_self
    rw [List.cons_append, breakHost_plain (fun e => absurd e colon) opening closing,
      ih fun d hd => h d (List.mem_cons_of_mem c hd)]

theorem breakHost_inside {cs : List Char} (h : ∀ c ∈ cs, c ≠ '[' ∧ c ≠ ']') (rest : List Char) :
    breakHost true (cs ++ rest) =
      (cs ++ (breakHost true rest).1, (breakHost true rest).2) := by
  induction cs with
  | nil => rfl
  | cons c cs ih =>
    obtain ⟨opening, closing⟩ := h c List.mem_cons_self
    rw [List.cons_append, breakHost_plain (fun _ => rfl) opening closing,
      ih fun d hd => h d (List.mem_cons_of_mem c hd)]
    rfl

theorem IsHost.breaks {host : List Char} (h : IsHost host) {rest : List Char}
    (hr : ∀ c ∈ rest.head?, c = ':') : breakHost false (host ++ rest) = (host, rest) := by
  cases h with
  | bracketed ns fits eight =>
    have inner : ∀ c ∈ Ipv6.toChars ns, c ≠ '[' ∧ c ≠ ']' := by
      intro c hc
      rcases Ipv6.mem_toChars hc with rfl | ⟨k, hk, rfl⟩
      · decide
      · have all : ∀ k < 16, Nat.digitChar k ≠ '[' ∧ Nat.digitChar k ≠ ']' := by decide
        exact all k hk
    have after : breakHost false ([] ++ rest) = ([], rest) :=
      breakHost_outside (fun c hc => absurd hc List.not_mem_nil) hr
    have opening (cs : List Char) : breakHost false ('[' :: cs) =
        ('[' :: (breakHost true cs).1, (breakHost true cs).2) := rfl
    have closing (cs : List Char) : breakHost true (']' :: cs) =
        (']' :: (breakHost false cs).1, (breakHost false cs).2) := rfl
    rw [List.nil_append] at after
    rw [List.cons_append, List.cons_append, List.append_assoc, opening, List.singleton_append,
      breakHost_inside inner, closing, after]
  | name _ settled allowed =>
    refine breakHost_outside (fun c hc => ?_) hr
    have forbidden := allowed c hc
    refine ⟨?_, ?_, ?_⟩ <;>
      · rintro rfl
        exact absurd forbidden (by decide)

/-! ## Ports -/

theorem readPort_fits {cs rest : List Char} {start port : Option Nat}
    (hs : ∀ n ∈ start, n ≤ 65535) (h : readPort start cs = .ok (port, rest)) :
    ∀ n ∈ port, n ≤ 65535 := by
  induction cs generalizing start with
  | nil =>
    cases h
    exact hs
  | cons c cs ih =>
    simp only [readPort] at h
    split at h
    · split at h
      · cases h
      · refine ih (fun n hn => ?_) h
        cases hn
        omega
    · split at h
      · cases h
        exact hs
      · cases h

/-- One more digit, after those that were read to the end. -/
theorem readPort_concat {ds : List Char} {start : Option Nat} {m k : Nat}
    (h : readPort start ds = .ok (some m, [])) (hk : k < 10) (fits : m * 10 + k ≤ 65535) :
    readPort start (ds ++ [Nat.digitChar k]) = .ok (some (m * 10 + k), []) := by
  induction ds generalizing start with
  | nil =>
    cases h
    have digit : Ipv6.isDigit (Nat.digitChar k) = true ∧ (Nat.digitChar k).toNat - 0x30 = k := by
      have all : ∀ k < 10, Ipv6.isDigit (Nat.digitChar k) = true ∧
          (Nat.digitChar k).toNat - 0x30 = k := by decide
      exact all k hk
    rw [List.nil_append, readPort, if_pos digit.1, digit.2, Option.getD_some,
      if_neg (by omega), readPort]
  | cons d ds ih =>
    simp only [List.cons_append, readPort] at h ⊢
    split at h
    · rename_i digit
      rw [if_pos digit]
      split at h
      · cases h
      · rename_i small
        rw [if_neg small]
        exact ih h
    · split at h <;> cases h

/-- A port reads back from its digits. -/
theorem readPort_toDigits {n : Nat} (hn : n ≤ 65535) :
    readPort none (Nat.toDigits 10 n) = .ok (some n, []) := by
  induction n using Nat.base_induction 10 (by decide) with
  | single m hm =>
    have all : ∀ m < 10, readPort none [Nat.digitChar m] = .ok (some m, []) := by decide
    rw [Nat.toDigits_of_lt_base hm]
    exact all m hm
  | digit m k hk hm ih =>
    have front := ih (by omega)
    rw [← Nat.toDigits_append_toDigits (by decide) hm hk, Nat.toDigits_of_lt_base hk,
      readPort_concat front hk (by omega), Nat.mul_comm m]

/-! ## Reading, step by step -/

/-- The port that follows a host, and what follows the port. -/
def readAfterHost (host : List Char) : List Char → Except Flaw (Option Nat × List Char)
  | ':' :: digits => if host = [] then .error .emptyHost else readPort none digits
  | rest => .ok (none, rest)

/-- The authority that its parts make, encoded. -/
def encoded (name : List Char) (password : Option (List Char)) (host : List Char)
    (port : Option Nat) : Authority where
  userName := Percent.encode Percent.isUserInfo name
  password := (password.filter (!·.isEmpty)).map (Percent.encode Percent.isUserInfo)
  host := host
  port := port

theorem readAuthority_eq {cs info place name hostChars afterHost : List Char}
    {password : Option (List Char)} (parted : (Split.last? '@' cs).getD ([], cs) = (info, place))
    (cut : Split.cutOff ':' info = (name, password))
    (broken : breakHost false place = (hostChars, afterHost)) (isFollowed : Bool) :
    readAuthority cs isFollowed =
      if cs.head? = some '@' ∧ place = [] ∧ info = [] ∧ isFollowed then .error .emptyHost
      else
        (readHost hostChars).bind fun host => (readAfterHost host afterHost).bind fun (port, rest) =>
          if host = [] ∧ (encoded name password host port).hasUserInfo then .error .emptyHost
          else .ok (encoded name password host port, rest) := by
  unfold readAuthority
  simp only [parted, cut, broken]
  split
  · rfl
  · cases readHost hostChars with
    | error flaw => rfl
    | ok host =>
      simp only [bind, Except.bind]
      split
      · rename_i digits
        rw [readAfterHost]
        split
        · rfl
        · cases readPort none digits with
          | error flaw => rfl
          | ok read =>
            by_cases check : host = [] ∧ (encoded name password host read.1).hasUserInfo = true
            · exact (if_pos check).trans (if_pos check).symm
            · exact (if_neg check).trans (if_neg check).symm
      · rename_i portless
        rw [readAfterHost]
        · by_cases check : host = [] ∧ (encoded name password host none).hasUserInfo = true
          · exact (if_pos check).trans (if_pos check).symm
          · exact (if_neg check).trans (if_neg check).symm
        · exact portless

/-- What reading an authority has found when it succeeds. -/
theorem readAuthority_ok {cs more : List Char} {isFollowed : Bool} {a : Authority}
    (h : readAuthority cs isFollowed = .ok (a, more)) :
    ∃ info place name password hostChars afterHost,
      (Split.last? '@' cs).getD ([], cs) = (info, place) ∧
        Split.cutOff ':' info = (name, password) ∧
        a = encoded name password a.host a.port ∧ readHost hostChars = .ok a.host ∧
        readAfterHost a.host afterHost = .ok (a.port, more) ∧
        ¬(a.host = [] ∧ a.hasUserInfo = true) := by
  cases parted : (Split.last? '@' cs).getD ([], cs) with
  | mk info place =>
    cases cut : Split.cutOff ':' info with
    | mk name password =>
      cases broken : breakHost false place with
      | mk hostChars afterHost =>
        rw [readAuthority_eq parted cut broken] at h
        split at h
        · cases h
        · cases host : readHost hostChars with
          | error flaw => rw [host] at h; cases h
          | ok found =>
            rw [host] at h
            cases after : readAfterHost found afterHost with
            | error flaw =>
              simp only [Except.bind, after] at h
              cases h
            | ok read =>
              simp only [Except.bind, after] at h
              split at h
              · cases h
              · rename_i consistent
                cases h
                exact ⟨info, place, name, password, hostChars, afterHost, rfl, cut, rfl, host, after,
                  consistent⟩

theorem readAfterHost_fits {host afterHost more : List Char} {port : Option Nat}
    (h : readAfterHost host afterHost = .ok (port, more)) :
    (∀ n ∈ port, n ≤ 65535) ∧ (host = [] → port = none) := by
  unfold readAfterHost at h
  split at h
  · split at h
    · cases h
    · rename_i named
      exact ⟨readPort_fits (fun n hn => by cases hn) h, fun e => absurd e named⟩
  · cases h
    exact ⟨(fun n hn => by cases hn), fun _ => rfl⟩

end Url

/-! ## The whole authority -/

/-- An authority as reading leaves it. One without a host has neither user information nor a
port, and a password that is there is not empty. -/
structure Authority.Settled (a : Authority) : Prop where
  userName : Percent.Settled Percent.isUserInfo a.userName
  password : ∀ p ∈ a.password, p ≠ [] ∧ Percent.Settled Percent.isUserInfo p
  host : Url.IsHost a.host
  port : ∀ n ∈ a.port, n ≤ 65535
  hostless : a.host = [] → a.hasUserInfo = false ∧ a.port = none

namespace Authority

/-- A host and its port. -/
def place (a : Authority) : List Char :=
  a.host ++ match a.port with
    | some n => ':' :: Nat.toDigits 10 n
    | none => []

theorem chars_eq_place {a : Authority} (h : a.hasUserInfo = false) : a.chars = a.place := by
  rw [chars, userInfoChars, h]
  rfl

theorem chars_eq_userInfo {a : Authority} (h : a.hasUserInfo = true) :
    a.chars = Split.joined ':' a.userName a.password ++ '@' :: a.place := by
  rw [chars, userInfoChars, h, place]
  cases a.password <;> cases a.port <;> simp [Split.joined]

namespace Settled

variable {a : Authority}

/-- No character of a port splits anything either. -/
theorem place_plain (h : a.Settled) {c : Char} (hc : c ∈ a.place) :
    0x20 < c.toNat ∧ c ≠ '/' ∧ c ≠ '@' ∧ c ≠ '?' ∧ c ≠ '#' := by
  rcases List.mem_append.mp hc with host | port
  · exact h.host.plain host
  · cases number : a.port with
    | none => simp [number] at port
    | some n =>
      rw [number] at port
      rcases List.mem_cons.mp port with rfl | digit
      · decide
      · exact Integer.forall_mem_toDigits (p := fun c => 0x20 < c.toNat ∧ c ≠ '/' ∧ c ≠ '@' ∧
          c ≠ '?' ∧ c ≠ '#') (by decide) n c digit

theorem breaks (h : a.Settled) :
    Url.breakHost false a.place =
      (a.host, match a.port with
        | some n => ':' :: Nat.toDigits 10 n
        | none => []) := by
  refine h.host.breaks fun c hc => ?_
  split at hc
  · cases hc; rfl
  · cases hc

theorem readAfterHost (h : a.Settled) :
    Url.readAfterHost a.host (match a.port with
      | some n => ':' :: Nat.toDigits 10 n
      | none => []) = .ok (a.port, []) := by
  cases number : a.port with
  | none => rfl
  | some n =>
    have named : a.host ≠ [] := by
      intro empty
      rw [(h.hostless empty).2] at number
      cases number
    simp only [Url.readAfterHost, if_neg named]
    exact Url.readPort_toDigits (h.port n number)

theorem encoded_eq (h : a.Settled) :
    Url.encoded a.userName a.password a.host a.port = a := by
  obtain ⟨name, password, host, port⟩ := a
  have kept : (password.filter (!·.isEmpty)).map (Percent.encode Percent.isUserInfo) =
      password := by
    cases password with
    | none => rfl
    | some p =>
      obtain ⟨nonempty, settled⟩ := h.password p rfl
      have stays : (some p).filter (!·.isEmpty) = some p :=
        Option.filter_some_pos (by simpa using nonempty)
      rw [stays, Option.map_some, settled.encode_eq]
  simp only [Url.encoded, h.userName.encode_eq, kept]

end Settled

end Authority

namespace Url

theorem readAuthority_settled {cs more : List Char} {isFollowed : Bool} {a : Authority}
    (h : readAuthority cs isFollowed = .ok (a, more)) : a.Settled := by
  obtain ⟨-, -, name, password, hostChars, afterHost, -, -, made, host, after, consistent⟩ :=
    readAuthority_ok h
  obtain ⟨port_fits, portless⟩ := readAfterHost_fits after
  have admitted := Percent.encode_settled Percent.isUserInfo_admits
  refine ⟨?_, ?_, readHost_isHost host, port_fits, fun empty => ⟨?_, portless empty⟩⟩
  · rw [made]
    exact admitted name
  · intro p hp
    rw [made] at hp
    obtain ⟨q, kept, rfl⟩ := Option.map_eq_some_iff.mp hp
    have nonempty := (Option.filter_eq_some_iff.mp kept).2
    exact ⟨fun none_left => by simp [Percent.encode_eq_nil.mp none_left] at nonempty, admitted q⟩
  · exact Bool.eq_false_iff.mpr fun named => consistent ⟨empty, named⟩

/-- **An authority reads back as itself.** -/
theorem readAuthority_chars {a : Authority} (h : a.Settled) (isFollowed : Bool) :
    readAuthority a.chars isFollowed = .ok (a, []) := by
  have unparted : '@' ∉ a.place := fun hc => (h.place_plain hc).2.2.1 rfl
  have finish : ¬(a.host = [] ∧ (encoded a.userName a.password a.host a.port).hasUserInfo) := by
    rw [h.encoded_eq]
    rintro ⟨empty, named⟩
    rw [(h.hostless empty).1] at named
    cases named
  have goes_on {info : List Char} : ¬(a.chars.head? = some '@' ∧ a.place = [] ∧ info = [] ∧
      isFollowed = true) := by
    rintro ⟨first, empty, -, -⟩
    have hostless : a.host = [] := (List.append_eq_nil_iff.mp empty).1
    rw [Authority.chars_eq_place (h.hostless hostless).1, empty] at first
    cases first
  have read {info name : List Char} {password : Option (List Char)}
      (parted : (Split.last? '@' a.chars).getD ([], a.chars) = (info, a.place))
      (cut : Split.cutOff ':' info = (name, password)) (same : name = a.userName)
      (secret : password = a.password) :
      readAuthority a.chars isFollowed = .ok (a, []) := by
    subst same secret
    rw [readAuthority_eq parted cut h.breaks, if_neg goes_on, h.host.read]
    simp only [Except.bind, h.readAfterHost]
    rw [if_neg finish, h.encoded_eq]
  cases info : a.hasUserInfo with
  | false =>
    have parted : (Split.last? '@' a.chars).getD ([], a.chars) = ([], a.place) := by
      rw [Authority.chars_eq_place info, Split.last?_eq_none.mpr unparted]
      rfl
    simp only [Authority.hasUserInfo, Bool.or_eq_false_iff, Bool.not_eq_false',
      List.isEmpty_iff, Option.isSome_eq_false_iff, Option.isNone_iff_eq_none] at info
    exact read parted rfl info.1.symm info.2.symm
  | true =>
    have parted : (Split.last? '@' a.chars).getD ([], a.chars) =
        (Split.joined ':' a.userName a.password, a.place) := by
      rw [Authority.chars_eq_userInfo info, Split.last?_eq_some.mpr ⟨rfl, unparted⟩]
      rfl
    have colon : ':' ∉ a.userName := fun hc => absurd (h.userName ':' hc) (by decide)
    exact read parted (Split.cutOff_joined colon a.password) rfl rfl

end Url

end NamedStores
