import Mathlib.Data.Int.Notation

/-!
# What the modules share

The two programs of the repository have much code in common and differ in single branches; a model
of both takes the side as a parameter.
-/

namespace QuicVpn

inductive Side where
  | client
  | server
  deriving DecidableEq, Repr

abbrev Byte := UInt8

/-- the values of `QUIC_STATUS` that the callbacks return -/
inductive QuicStatus where
  | success
  | protocolError
  | aborted
  deriving DecidableEq, Repr

/-- `-EINVAL` -/
def einval : ℤ := -22

/-- `-ERANGE` -/
def erange : ℤ := -34

/-- `-ECONNABORTED` -/
def econnaborted : ℤ := -103

/-- `-ETIMEDOUT` -/
def etimedout : ℤ := -110

/-- `-ECANCELED` -/
def ecanceled : ℤ := -125

end QuicVpn
