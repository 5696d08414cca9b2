import CloudTerminal.Error
import CloudTerminal.Text.Blank

/-!
The settings of a session: who works on which simulated host, and how its commands behave.
`check_eq_ok_iff` says which settings are valid.
-/

namespace CloudTerminal

/-- `SimConfig`: the settings of a session. -/
structure Config where
  user : String := "user"
  hostname : String := "cloudsim"
  /-- The path of the home directory. -/
  home : String := "~"
  /-- The start of the random source, which is arbitrary if there is none. -/
  seed : Option UInt64 := none
  /-- The number of commands during which a clone stays under way. -/
  cloneDelay : Nat := 0
  /-- The number of echo requests that `ping` sends. -/
  pingCount : Nat := 4
  deriving DecidableEq

namespace Config

/-- `MAX_PING_COUNT`: the largest number of echo requests. -/
def maxPingCount : Nat := 20

/-- Names the user and the host, in the comments of keys. -/
def identity (config : Config) : String := s!"{config.user}@{config.hostname}"

/-- `SimConfig::validate`: refuses settings outside their ranges; the first one in the order of the fields
is reported. -/
def check (config : Config) : Except Error Unit :=
  if Text.isAllBlank config.user then .error (.emptyField "user")
  else if Text.isAllBlank config.hostname then .error (.emptyField "hostname")
  else if Text.isAllBlank config.home then .error (.emptyField "home")
  else if config.pingCount = 0 ∨ maxPingCount < config.pingCount then
    .error (.pingCountOutOfRange maxPingCount)
  else .ok ()

theorem check_eq_ok_iff (config : Config) :
    config.check = .ok () ↔
      Text.isAllBlank config.user = false ∧ Text.isAllBlank config.hostname = false ∧
        Text.isAllBlank config.home = false ∧
        1 ≤ config.pingCount ∧ config.pingCount ≤ maxPingCount := by
  have range : (¬(config.pingCount = 0 ∨ maxPingCount < config.pingCount)) ↔
      1 ≤ config.pingCount ∧ config.pingCount ≤ maxPingCount := by omega
  rw [← range]
  cases user : Text.isAllBlank config.user <;> cases hostname : Text.isAllBlank config.hostname <;>
    cases home : Text.isAllBlank config.home <;> simp [check, user, hostname, home]

end Config

end CloudTerminal
