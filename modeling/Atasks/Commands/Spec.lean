import Atasks.Amqp.Config
/-!
# The namespaces of a service

What one `-N`/`--namespace` option says (`_parse_namespace_spec`, `atasks/commands/service.py`)
and the transport `aiomain` constructs for it (`:312-325`). How the value is read, and the
options that go to the `Router`, are in `Commands/Options.lean`.
-/

namespace Atasks.Commands

open Amqp (Config)

/-- What a parser of an option's value raises. -/
structure ArgumentTypeError where
  message : String
deriving DecidableEq, Repr

inductive Mode
  | client
  | server
  | loopback
deriving DecidableEq, Repr

inductive TransportName
  | loopback
  | amqp
deriving DecidableEq, Repr

/-- One parsed option, with its defaults. -/
structure NamespaceSpec where
  name : String := "default"
  mode : Mode := .loopback
  transport : TransportName := .loopback
  url : Option String := none
deriving DecidableEq, Repr

/-- `mode` in `('server', 'loopback')`: the router of the namespace gets activated. -/
def NamespaceSpec.serves (ns : NamespaceSpec) : Bool := ns.mode = .server || ns.mode = .loopback

/-- What `AMQPTransport.__init__` keeps, with its defaults (`amqp.py:66-83`). -/
structure AMQPTransport where
  namespaceName : String := "default"
  url : Option String := some "amqp://localhost/"
  config : Config := .default
deriving DecidableEq, Repr

/-- `AMQPTransport(namespace=name, url=ns['url'])`. -/
def NamespaceSpec.amqpTransport (ns : NamespaceSpec) : AMQPTransport :=
    { namespaceName := ns.name, url := ns.url }

/-- Whatever a namespace is called, its exchanges, its prefix and its queue are the defaults. -/
theorem NamespaceSpec.config_amqpTransport (ns : NamespaceSpec) :
    ns.amqpTransport.config = Config.default := rfl

end Atasks.Commands
