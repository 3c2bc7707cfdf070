/-
Sending with retries.

`send_and_recv_with_retry` calls the transport up to a configured number of times and
sleeps between two attempts, twice as long each time.  It is a loop around one `await`, so
its own state is the number of the attempt under way, or of the one it sleeps after; what
the transport does in between is not its business.  The configuration is read from the
environment once and is the same from then on; here it is a value.
-/
import MelsecMc.Bytes

namespace MelsecMc

/-- `Config`: the settings the transport and the retry loop read. -/
structure Config where
  melsecUdpRecvAttempts : Nat
  melsecTcpRetryAttempts : Nat
  melsecTcpRetryBackoffMs : UInt64
  deriving DecidableEq, Repr

/-- `u64::saturating_mul` -/
def saturatingMul (a b : UInt64) : UInt64 :=
  if a.toNat * b.toNat < 2 ^ 64 then a * b else 0xFFFFFFFFFFFFFFFF

/-- The sleep after a failed attempt, in milliseconds. -/
def backoff (baseBackoffMs : UInt64) (attempt : Nat) : UInt64 :=
  -- cap the exponent to avoid unbounded shifts
  let exp := min (attempt - 1) 63
  saturatingMul baseBackoffMs (UInt64.ofNat (2 ^ exp))

/-- Where `send_and_recv_with_retry` is suspended, or what it returned. -/
inductive RetryPhase
  /-- the transport is called for the `attempt`-th time -/
  | sending (attempt : Nat)
  /-- `sleep` after the attempt -/
  | sleeping (attempt : Nat) (ms : UInt64)
  | finished (result : Except Failure Bytes)
  deriving DecidableEq

namespace RetryPhase

/-- The head of the loop for the first time. -/
def start (config : Config) : RetryPhase :=
  if config.melsecTcpRetryAttempts = 0 then .finished (protocolError "unknown transport error")
  else .sending 1

/-- The transport has returned. -/
def onResult (config : Config) (attempt : Nat) : Except Failure Bytes → RetryPhase
  | .ok buf => .finished (.ok buf)
  | .error (.err e) =>
      if attempt = config.melsecTcpRetryAttempts then .finished (.error (.err e))
      else .sleeping attempt (backoff config.melsecTcpRetryBackoffMs attempt)
  | .error (.panic p) => .finished (.error (.panic p))

/-- The sleep is over. -/
def onWake : RetryPhase → RetryPhase
  | .sleeping attempt _ => .sending (attempt + 1)
  | phase => phase

end RetryPhase

end MelsecMc
