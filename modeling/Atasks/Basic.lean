/-!
# Vocabulary shared by every part of the model

| here | there |
| --- | --- |
| `Bytes` | `bytes` on the wire: encoded content and message bodies |
| `Kind`  | the three atask patterns, as `AtaskHop.kind` spells them (`atasks/trace.py:87`) |

A value that the code may also set to `None` is an `Option`: the body that
`PickleCodec.encode` returns (`atasks/codecs.py:68-75`) is an `Option Bytes`.
-/

namespace Atasks

abbrev Bytes := List UInt8

/-- `'rpc'`, `'queue'` or `'broadcast'`. -/
inductive Kind
  | rpc
  | queue
  | broadcast
deriving DecidableEq, Repr

end Atasks
