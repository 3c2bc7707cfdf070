/-
Connection targets.

A target has its address as a string, which `lookup_host` resolves and which the cached
connections are found by.  The builder keeps it in step with the host and the port.
-/
import MelsecMc.Define

namespace MelsecMc

structure ConnectionTarget where
  ip : String
  port : UInt16
  addr : String
  accessRoute : AccessRoute
  deriving DecidableEq, Repr

namespace ConnectionTarget

/-- `DEFAULT_IP` -/
def defaultIp : String := "127.0.0.1"

/-- `DEFAULT_PORT` -/
def defaultPort : UInt16 := 5000

/-- `format!("{ip}:{port}")` -/
def formatAddr (ip : String) (port : UInt16) : String :=
  ip ++ ":" ++ port.toNat.repr

def new : ConnectionTarget where
  ip := defaultIp
  port := defaultPort
  addr := formatAddr defaultIp defaultPort
  accessRoute := AccessRoute.default

def withAccessRoute (self : ConnectionTarget) (route : AccessRoute) : ConnectionTarget :=
  { self with accessRoute := route }

def withIp (self : ConnectionTarget) (ip : String) : ConnectionTarget :=
  { self with ip, addr := formatAddr ip self.port }

def withPort (self : ConnectionTarget) (port : UInt16) : ConnectionTarget :=
  { self with port, addr := formatAddr self.ip port }

def build (self : ConnectionTarget) : ConnectionTarget := self

/-- A call of a builder method. -/
inductive BuilderCall
  | withAccessRoute (route : AccessRoute)
  | withIp (ip : String)
  | withPort (port : UInt16)
  | build
  deriving DecidableEq

def apply (self : ConnectionTarget) : BuilderCall → ConnectionTarget
  | .withAccessRoute route => self.withAccessRoute route
  | .withIp ip => self.withIp ip
  | .withPort port => self.withPort port
  | .build => self.build

/-- `new` and then these calls. -/
def built (calls : List BuilderCall) : ConnectionTarget :=
  calls.foldl apply new

end ConnectionTarget

end MelsecMc
