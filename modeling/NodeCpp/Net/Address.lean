/-!
# Addresses

`IPFAMILY` and `nodecpp::net::Address`. `IPFAMILY` is made from a literal by comparison with
`"ipv4"` and `"ipv6"`; the managers initialise theirs with `"IPv4"`, which is neither.
-/

namespace NodeCpp

/-- `IPFAMILY::Value`. -/
inductive IpFamily
  | undefined
  | ipv4
  | ipv6
  deriving DecidableEq, Repr

namespace IpFamily

def toNum : IpFamily → Nat
  | undefined => 0
  | ipv4 => 1
  | ipv6 => 2

def ofNum : Nat → IpFamily
  | 1 => ipv4
  | 2 => ipv6
  | _ => undefined

@[simp] theorem ofNum_toNum (f : IpFamily) : ofNum f.toNum = f := by
  cases f <;> rfl

/-- The constructor that takes a literal; `strncmp` looks at four characters. -/
def ofLiteral (family : String) : IpFamily :=
  if family.toList.take 4 = "ipv4".toList then ipv4
  else if family.toList.take 4 = "ipv6".toList then ipv6
  else undefined

end IpFamily

/-- `family` of `NetServerManagerBase`, and of the managers that replay. -/
def serverFamily : IpFamily := .ofLiteral "IPv4"

example : serverFamily = .undefined := rfl

structure Address where
  port : UInt16 := 0
  family : IpFamily := .undefined
  ip : UInt32 := 0xffffffff
  deriving DecidableEq, Repr

end NodeCpp
