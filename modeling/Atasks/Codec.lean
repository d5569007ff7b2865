import Atasks.Lib.Dict
import Atasks.Trace
/-!
# Codecs

`atasks/codecs.py`. A codec turns what a call or a response carries into bytes and back; it
may raise, and it may come back with `None`.

| here | there |
| --- | --- |
| `Payload`     | the two tuples `Router` encodes: `(argv, kwargs, trace_chain)` and `(success, result)` |
| `Codec`       | `Codec`, with content `None` where the source lets it through |
| `PickleCodec` | `PickleCodec` over `pickle.dumps` and `pickle.loads`: what they raise is logged, and `None` returned |
-/

namespace Atasks

open Trace (AtaskHop)

/-- How a coroutine ended, as `(success, result)`. -/
inductive Outcome (ν ε : Type)
  | returned (value : ν)
  | raised (ex : ε)

/-- Values `ν`, exceptions `ε`. -/
inductive Payload (ν ε : Type)
  | call (argv : List ν) (kwargs : Dict String ν) (traceChain : List AtaskHop)
  | response (outcome : Outcome ν ε)

/-- What decodes to anything but a payload is `none`. -/
structure Codec (ν ε : Type) where
  encode : Payload ν ε → Except ε (Option Bytes)
  decode : Option Bytes → Except ε (Option (Payload ν ε))

def PickleCodec {ν ε : Type} (dumps : Payload ν ε → Except ε Bytes)
    (loads : Option Bytes → Except ε (Option (Payload ν ε))) :
    Codec ν ε where
  encode obj :=
    match dumps obj with
    | .ok content => .ok (some content)
    | .error _ => .ok none
  decode content :=
    match loads content with
    | .ok obj => .ok obj
    | .error _ => .ok none

end Atasks
