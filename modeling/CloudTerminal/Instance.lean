import CloudTerminal.Directory

/-!
Simulated instances. The identifier, the type and the time of creation never change; the power state
changes by starting and stopping.
-/

namespace CloudTerminal

/-- A simulated machine. -/
structure Instance where
  id : String
  name : String
  type : InstanceType
  power : Power
  /-- The clock text at its creation. -/
  created : String
  deriving DecidableEq

namespace Instance

instance : Named Instance where
  label := "instance"
  name := Instance.name

/-- `Instance::new`: a fresh instance, which is running. -/
def launch (id name : String) (type : InstanceType) (created : String) : Instance :=
  { id, name, type, power := .running, created }

/-- `Instance::transition`: the instance in the other power state; it is refused when it is in that state
already. -/
def enter (power : Power) (i : Instance) : Except Error Instance :=
  if i.power = power then .error (.alreadyPowered i.name power) else .ok { i with power }

/-- Starts a stopped instance. -/
def start (i : Instance) : Except Error Instance := i.enter .running

/-- Stops a running instance. -/
def stop (i : Instance) : Except Error Instance := i.enter .stopped

end Instance

end CloudTerminal
