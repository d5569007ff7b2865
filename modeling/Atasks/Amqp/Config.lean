import Atasks.Basic
import Atasks.Lib.Topic
/-!
# The parameters of an `AMQPTransport` and the names built from them

`atasks/transport/backends/amqp.py:63-113`. All four exchanges are durable topics and may
be one and the same; the reserved routing prefixes keep the patterns apart
(`routingKey_inj`).
-/

namespace Atasks.Amqp

/-- What `__init__` keeps of its arguments, as far as names are built from it. `keyPrefix`
is the argument `prefix`. -/
structure Config where
  requestExchange : String
  responseExchange : String
  eventExchange : String
  broadcastExchange : String
  keyPrefix : String
  queue : String
deriving DecidableEq, Repr

namespace Config

/-- The defaults of `__init__`. -/
def default : Config := ⟨"atask", "atask", "atask", "atask", "atask", "atask"⟩

/-- What tells the routing keys of the three patterns apart. -/
def keyWord : Kind → String
  | .rpc => "r"
  | .queue => "e"
  | .broadcast => "b"

/-- `_request_routing_prefix`, `_event_routing_prefix` and `_broadcast_routing_prefix`. -/
def routingPrefix (cfg : Config) (kind : Kind) : String :=
    cfg.keyPrefix ++ "." ++ keyWord kind ++ "."

/-- The exact key that messages for `name` are published under and its queue is bound to. -/
def routingKey (cfg : Config) (kind : Kind) (name : String) : String :=
    cfg.routingPrefix kind ++ name

def exchange (cfg : Config) : Kind → String
  | .rpc => cfg.requestExchange
  | .queue => cfg.eventExchange
  | .broadcast => cfg.broadcastExchange

/-- What tells the durable queues of requests and of events apart. A broadcast subscriber
declares an exclusive queue instead, whose name the broker chooses. -/
def queueWord : Kind → Option String
  | .rpc => some "r"
  | .queue => some "q"
  | .broadcast => none

/-- The durable queue shared by all consumers of `name`. -/
def queueName (cfg : Config) (kind : Kind) (name : String) : Option String :=
  (queueWord kind).map fun w => cfg.queue ++ "." ++ cfg.keyPrefix ++ "." ++ w ++ "." ++ name

end Config

/-- A name of the form the decorators give by default, `'%s.%s' % (coro.__module__,
coro.__name__)` (`atasks/tasks.py:48`): at least two words, and identifiers are no wildcards. -/
def IsTaskName (name : String) : Prop := 2 ≤ (Topic.words name).length ∧ Topic.WildcardFree name

instance (name : String) : Decidable (IsTaskName name) := inferInstanceAs (Decidable (_ ∧ _))

namespace Config

/-- `key` is `pre`, a dot and a task name. -/
def isTaskNameAfter (pre key : String) : Bool :=
  (Topic.words pre).isPrefixOf (Topic.words key) &&
    let name := (Topic.words key).drop (Topic.words pre).length
    2 ≤ name.length && name.all fun w => w != Topic.star && w != Topic.hash

/-- Some task's routing key. -/
def isTaskKey (cfg : Config) (key : String) : Bool :=
  [Kind.rpc, .queue, .broadcast].any fun kind => isTaskNameAfter
    (cfg.keyPrefix ++ "." ++ keyWord kind) key

/-- Some task's durable queue. -/
def isTaskQueue (cfg : Config) (queue : String) : Bool :=
  [Kind.rpc, .queue].any fun kind =>
    (queueWord kind).any fun w => isTaskNameAfter
      (cfg.queue ++ "." ++ cfg.keyPrefix ++ "." ++ w) queue

theorem isTaskNameAfter_append {pre name : String} (h : IsTaskName name) :
    isTaskNameAfter pre (pre ++ "." ++ name) = true := by
  simp only [isTaskNameAfter, Topic.words_append_dot, Bool.and_eq_true, List.drop_left,
    decide_eq_true_eq, List.all_eq_true,
    bne_iff_ne]
  exact ⟨by simp [List.isPrefixOf_iff_prefix], h.1, fun w hw => h.2 w hw⟩

theorem isTaskKey_routingKey (cfg : Config) (kind : Kind) {name : String} (h : IsTaskName name) :
    cfg.isTaskKey (cfg.routingKey kind name) = true :=
  List.any_eq_true.2 ⟨kind, by cases kind <;> simp, isTaskNameAfter_append h⟩

theorem isTaskQueue_queueName (cfg : Config) {kind : Kind} {name queue : String}
    (h : IsTaskName name) (hq : cfg.queueName kind name = some queue) :
    cfg.isTaskQueue queue = true := by
  obtain ⟨w, hw, rfl⟩ := Option.map_eq_some_iff.1 hq
  refine List.any_eq_true.2 ⟨kind, ?_, ?_⟩
  · cases kind <;> simp_all [queueWord]
  · rw [hw]
    exact isTaskNameAfter_append h

theorem queueWord_inj {kind kind' : Kind} (h : queueWord kind = queueWord kind')
    (hs : (queueWord kind).isSome) :
    kind = kind' := by
  cases kind <;> cases kind' <;> simp [queueWord] at h hs ⊢

theorem words_keyWord (kind : Kind) : Topic.words (keyWord kind) = [(keyWord kind).toList] := by
  cases kind <;> decide

theorem words_queueWord {kind : Kind} {w : String} (h : queueWord kind = some w) :
    Topic.words w = [w.toList] := by
  cases kind <;> cases h <;> decide

/-- **Routing keys do not clash**, neither across patterns nor across names. -/
theorem routingKey_inj (cfg : Config) {kind kind' : Kind} {name name' : String}
    (h : cfg.routingKey kind name = cfg.routingKey kind' name') : kind = kind' ∧ name = name' := by
  have hwords := congrArg Topic.words h
  simp only [routingKey, routingPrefix, Topic.words_append_dot, List.append_assoc,
    List.append_cancel_left_eq,
    words_keyWord, List.singleton_append, List.cons.injEq] at hwords
  refine ⟨?_, Topic.words_injective hwords.2⟩
  have hword := String.toList_injective hwords.1
  cases kind <;> cases kind' <;> simp_all [keyWord]

/-- Requests and events have queues of their own. -/
theorem queueName_inj (cfg : Config) {kind kind' : Kind} {name name' queue : String}
    (h : cfg.queueName kind name = some queue) (h' : cfg.queueName kind' name' = some queue) :
    kind = kind' ∧ name = name' := by
  obtain ⟨w, hw, rfl⟩ := Option.map_eq_some_iff.1 h
  obtain ⟨w', hw', heq⟩ := Option.map_eq_some_iff.1 h'
  have hwords := congrArg Topic.words heq
  simp only [Topic.words_append_dot, List.append_assoc, List.append_cancel_left_eq,
    words_queueWord hw,
    words_queueWord hw', List.singleton_append, List.cons.injEq] at hwords
  refine ⟨?_, Topic.words_injective hwords.2.symm⟩
  exact queueWord_inj (by rw [hw, hw', String.toList_injective hwords.1]) (by rw [hw]; rfl)

theorem wildcardFree_routingKey (cfg : Config) (hcfg : Topic.WildcardFree cfg.keyPrefix)
    (kind : Kind) {name : String} (h : IsTaskName name) :
    Topic.WildcardFree (cfg.routingKey kind name) := by
  have hword : Topic.WildcardFree (keyWord kind) := by cases kind <;> decide
  exact Topic.wildcardFree_append_dot.2 ⟨Topic.wildcardFree_append_dot.2 ⟨hcfg, hword⟩, h.2⟩

end Config

end Atasks.Amqp
