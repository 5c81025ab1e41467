/-
How the program ends. Where every client closes, shutting down lets go of all of them, whatever
startup came to; so no handle is left connected, neither after a fatal failure nor after the
summaries were shown, and the exit code tells the one from the other.
-/
import NamedStores.KeyValue.Resp
import NamedStores.Proofs.Registry.Life
import NamedStores.Proofs.Startup.Guarantee

namespace NamedStores

namespace Registry

variable {ω σ κ : Type}

def NoneConnected (r : Registry σ κ) : Prop := ∀ p ∈ r.handles, p.2.status ≠ .connected

theorem Sound.load {c : Configuration} {r r' : Registry σ κ} (hr : Sound c r) {b : Backend ω σ κ}
    {part : String} {result : Except Stop Unit} (he : r.load b part = (result, r')) :
    Sound c r' := by
  unfold Registry.load at he
  split at he
  · cases he
    exact hr
  · exact hr.loadEntries he

end Registry

namespace Stores

variable {ω σ κ : Type}

/-- Summaries in the order of the names. -/
def NameOrder (summaries : List Handle.Summary) : Prop :=
  summaries.Pairwise fun a b => Utf8.ofString a.name < Utf8.ofString b.name

end Stores

namespace Startup

/-! ## What startup comes to -/

/-- The file holds a document that is an object of sections. -/
def Holds (content : FileContent) (c : Configuration) : Prop :=
  ∃ octets, content = .octets octets ∧ (∃ text, octets = Utf8.encode text) ∧
    Json.ofOctets octets = .ok (.object c.sections)

theorem ofFile_eq_ok (path : String) {content : FileContent} {c : Configuration} :
    Configuration.ofFile path content = .ok c ↔ Holds content c := by
  constructor
  · intro h
    cases content with
    | octets octets =>
      simp only [Configuration.ofFile] at h
      split at h
      · next text decoded =>
        refine ⟨octets, rfl, ⟨text, Utf8.decode?_eq_some.1 decoded⟩, ?_⟩
        unfold Configuration.ofOctets at h
        split at h
        · next v read =>
          cases v <;> cases h
          exact read
        · cases h
      · cases h
    | missing => cases h
    | directory => cases h
    | unreadable reason => cases h
  · rintro ⟨octets, rfl, ⟨text, written⟩, read⟩
    simp only [Configuration.ofFile, Utf8.decode?_eq_some.2 written, Configuration.ofOctets, read,
      Configuration.ofJson]

section

variable {ω σ κ ω' σ' κ' : Type}

/-- The failure that ends a startup, if it came to one. -/
def fatal? : Except Stop Unit → Option Failure
  | .ok _ => none
  | .error stop => if stop.failure.isFatal then some stop.failure else none

/-- The databases before their startup. -/
def freshDatabases (c : Configuration) (w : ω) : Stores ω σ κ := ⟨Registry.empty c "databases", w⟩

def freshRedis (c : Configuration) (w : ω) : Stores ω σ κ := ⟨Registry.empty c "redis", w⟩

/-- The startup of the databases: its result, and the stores after it. -/
def startDatabases (b : Backend ω σ κ) (o : Options) (c : Configuration) (w : ω) :
    Except Stop Unit × Stores ω σ κ :=
  (freshDatabases c w).start b o.databaseSection o.connectAll

def startRedis (b : Backend ω σ κ) (o : Options) (c : Configuration) (w : ω) :
    Except Stop Unit × Stores ω σ κ :=
  (freshRedis c w).start b o.redisSection o.connectAll

/-- How the program ends, by what the file held and what the startups of both sections came to. -/
structure Ends (b : Backend ω σ κ) (b' : Backend ω' σ' κ') (o : Options) (content : FileContent)
    (w : ω) (w' : ω') (outcome : Outcome) (done : Option (Launch ω σ κ ω' σ' κ')) : Prop where
  exit_zero : outcome.exitCode = 0 ↔ ∃ c, Holds content c ∧
    fatal? (startDatabases b o c w).1 = none ∧ fatal? (startRedis b' o c w').1 = none
  exit_one : outcome.exitCode = 0 ∨ outcome.exitCode = 1
  shown_iff : outcome.summaries.isSome ↔ outcome.exitCode = 0
  /-- What is shown are the handles as startup left them, databases first, each kind by name. -/
  shown : ∀ summaries, outcome.summaries = some summaries → ∃ c, Holds content c ∧
    ∃ databases redis, summaries = databases ++ redis ∧
      databases = (startDatabases b o c w).2.registry.summaries .database ∧
      redis = (startRedis b' o c w').2.registry.summaries .redis ∧
      Stores.NameOrder databases ∧ Stores.NameOrder redis
  served_iff : done.isSome ↔ ∃ c, Holds content c
  /-- Both sections are started, and taken down again; Redis is not started after a fatal failure
  of the databases. -/
  served : ∀ l, done = some l → ∃ c, Holds content c ∧
    l.databases = ((startDatabases b o c w).2.disconnect b).2 ∧
    (fatal? (startDatabases b o c w).1 = none →
      l.redis = ((startRedis b' o c w').2.disconnect b').2) ∧
    (fatal? (startDatabases b o c w).1 ≠ none → l.redis = freshRedis c w')
  disconnected : ∀ l, done = some l →
    l.databases.registry.NoneConnected ∧ l.redis.registry.NoneConnected

theorem Holds.unique {content : FileContent} {c c' : Configuration} (h : Holds content c)
    (h' : Holds content c') : c' = c := by
  have read := (ofFile_eq_ok "").2 h
  rw [(ofFile_eq_ok "").2 h'] at read
  cases read
  rfl

end

end Startup

end NamedStores
