import Atasks.Amqp.Config
/-!
# Deployments on one broker

Two services, or two environments of one, share a broker and its exchanges and tell their
traffic apart by `prefix` and `queue` (`AMQP-TRANSPORT-TOPOLOGY.md`, "Constructor parameters
that shape the topology"). Both parameters are free strings, and dots in them are not told
from the dots put between the parts:

| | queue | prefix | |
| --- | --- | --- | --- |
| equal stems     | `svc.eu` | `prod`    | both declare `svc.eu.prod.r.<name>` |
|                 | `svc`    | `eu.prod` | |
| nested prefixes | `atask`  | `atask`   | the request `r.<name>` of the first has the key of |
|                 | `atask`  | `atask.r` | the request `<name>` of the second |

`separate_iff` shows that these are all the ways in which two deployments collide.
-/

namespace Atasks.Amqp

open Topic (Under)

namespace Config

/-- What the names of all durable queues start with. -/
def stem (cfg : Config) : String := cfg.queue ++ "." ++ cfg.keyPrefix

/-- No durable queue of one is a durable queue of the other, of whatever kind and name. -/
def QueuesApart (a b : Config) : Prop :=
  ∀ kind kind' name name' queue, a.queueName kind name = some queue →
    b.queueName kind' name' ≠ some queue

/-- No key the one publishes under is a key the other binds, and the other way round. -/
def KeysApart (a b : Config) : Prop :=
  ∀ kind kind' name name', a.routingKey kind name ≠ b.routingKey kind' name'

/-- What a deployment is promised for values of its own. -/
structure Separate (a b : Config) : Prop where
  queues : (a.queue, a.keyPrefix) ≠ (b.queue, b.keyPrefix) → QueuesApart a b
  keys : a.keyPrefix ≠ b.keyPrefix → KeysApart a b

/-- Neither base goes on from the other with a marker word. -/
def Unnested (markers : List String) (s t : String) : Prop :=
  ∀ m ∈ markers, ¬ Under (s ++ "." ++ m) t ∧ ¬ Under (t ++ "." ++ m) s

def queueMarkers : List String := ["r", "q"]

def keyMarkers : List String := ["r", "e", "b"]

/-- The values that keep the promise. -/
structure Distinguishable (a b : Config) : Prop where
  queues : (a.queue, a.keyPrefix) ≠ (b.queue, b.keyPrefix) → a.stem ≠ b.stem ∧
    Unnested queueMarkers a.stem b.stem
  keys : a.keyPrefix ≠ b.keyPrefix → Unnested keyMarkers a.keyPrefix b.keyPrefix

theorem mem_queueMarkers {m : String} : m ∈ queueMarkers ↔ ∃ kind, queueWord kind = some m := by
  constructor
  · intro h
    rcases List.mem_cons.1 h with rfl | h
    · exact ⟨.rpc, rfl⟩
    · obtain rfl := List.mem_singleton.1 h
      exact ⟨.queue, rfl⟩
  · rintro ⟨kind, h⟩
    cases kind <;> cases h <;> simp [queueMarkers]

theorem mem_keyMarkers {m : String} : m ∈ keyMarkers ↔ ∃ kind, keyWord kind = m := by
  constructor
  · intro h
    simp only [keyMarkers, List.mem_cons, List.not_mem_nil, or_false] at h
    rcases h with rfl | rfl | rfl
    · exact ⟨.rpc, rfl⟩
    · exact ⟨.queue, rfl⟩
    · exact ⟨.broadcast, rfl⟩
  · rintro ⟨kind, rfl⟩
    cases kind <;> simp [keyMarkers, keyWord]

/-- Two bases that no marker makes meet. -/
theorem joins_apart_iff {s t : String} {markers : List String}
    (hmarkers : ∀ m ∈ markers, Topic.words m = [m.toList]) (hne : markers ≠ []) :
    (∀ m ∈ markers, ∀ m' ∈ markers, ∀ n n',
        s ++ "." ++ m ++ "." ++ n ≠ t ++ "." ++ m' ++ "." ++ n') ↔
      s ≠ t ∧ Unnested markers s t := by
  have h := not_congr (Topic.join_clash_iff (s := s) (t := t) hmarkers hne)
  simp only [not_exists, not_and, not_or] at h
  rw [Unnested]
  constructor
  · intro hapart
    obtain ⟨hst, h₁, h₂⟩ := h.1 hapart
    exact ⟨hst, fun m hm => ⟨h₁ m hm, h₂ m hm⟩⟩
  · rintro ⟨hst, hun⟩
    exact h.2 ⟨hst, fun m hm => (hun m hm).1, fun m hm => (hun m hm).2⟩

theorem queuesApart_iff {a b : Config} :
    QueuesApart a b ↔ a.stem ≠ b.stem ∧ Unnested queueMarkers a.stem b.stem := by
  have hmarkers : ∀ m ∈ queueMarkers, Topic.words m = [m.toList] := by
    intro m hm
    obtain ⟨kind, hkind⟩ := mem_queueMarkers.1 hm
    exact words_queueWord hkind
  rw [← joins_apart_iff hmarkers (by simp [queueMarkers])]
  constructor
  · intro h m hm m' hm' n n' heq
    obtain ⟨kind, hkind⟩ := mem_queueMarkers.1 hm
    obtain ⟨kind', hkind'⟩ := mem_queueMarkers.1 hm'
    apply h kind kind' n n' (a.stem ++ "." ++ m ++ "." ++ n)
    · simp [queueName, hkind, stem]
    · rw [heq]
      simp [queueName, hkind', stem]
  · intro h kind kind' name name' queue hq hq'
    obtain ⟨m, hm, rfl⟩ := Option.map_eq_some_iff.1 hq
    obtain ⟨m', hm', heq⟩ := Option.map_eq_some_iff.1 hq'
    exact h m (mem_queueMarkers.2 ⟨kind, hm⟩) m' (mem_queueMarkers.2 ⟨kind', hm'⟩) name name' heq.symm

theorem keysApart_iff {a b : Config} :
    KeysApart a b ↔ a.keyPrefix ≠ b.keyPrefix ∧ Unnested keyMarkers a.keyPrefix b.keyPrefix := by
  have hmarkers : ∀ m ∈ keyMarkers, Topic.words m = [m.toList] := by
    intro m hm
    obtain ⟨kind, rfl⟩ := mem_keyMarkers.1 hm
    exact words_keyWord kind
  rw [← joins_apart_iff hmarkers (by simp [keyMarkers])]
  constructor
  · intro h m hm m' hm' n n' heq
    obtain ⟨kind, rfl⟩ := mem_keyMarkers.1 hm
    obtain ⟨kind', rfl⟩ := mem_keyMarkers.1 hm'
    exact h kind kind' n n' heq
  · intro h kind kind' name name'
    exact h (keyWord kind) (mem_keyMarkers.2 ⟨kind, rfl⟩) (keyWord kind')
      (mem_keyMarkers.2 ⟨kind', rfl⟩) name name'

/-- **When two deployments do not collide.** -/
theorem separate_iff (a b : Config) : Separate a b ↔ Distinguishable a b := by
  constructor
  · intro h
    exact ⟨fun hne => queuesApart_iff.1 (h.queues hne), fun hne => (keysApart_iff.1 (h.keys hne)).2⟩
  · intro h
    exact ⟨fun hne => queuesApart_iff.2 (h.queues hne), fun hne => keysApart_iff.2
      ⟨hne, h.keys hne⟩⟩

/-- Both defects at values of the kind the documentation suggests: a queue `svc.eu` with the
prefix `prod`, a queue `svc` with the prefix `eu.prod`; a prefix `atask`, a prefix `atask.r`. -/
theorem deployments_collide :
    ¬ Separate { default with queue := "svc.eu", keyPrefix := "prod" } { default with
      queue := "svc", keyPrefix := "eu.prod" } ∧
      ¬ Separate default { default with queue := "other", keyPrefix := "atask.r" } := by
  constructor
  · intro h
    exact h.queues (by decide) .rpc .rpc "m.f" "m.f" "svc.eu.prod.r.m.f" (by decide) (by decide)
  · intro h
    exact h.keys (by decide) .rpc .rpc "r.m.f" "m.f" (by decide)

/-- One word for each parameter is enough. -/
example : Unnested queueMarkers "staging.staging" "prod.prod" := by
  unfold Unnested
  decide

end Config

end Atasks.Amqp
