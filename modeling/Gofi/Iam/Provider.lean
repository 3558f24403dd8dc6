import Gofi.Iam.Provider.MemoryCutoff
import Gofi.Iam.Provider.RedisCutoff

/-! The service over either of its session providers. -/

namespace Gofi.Iam

open Gofi.Concurrent Gofi.Go

inductive Provider where
  | memory (withTTL : Bool)
  | redis (keyPrefix : Str)

namespace Provider

def backend : Provider → Backend
  | .memory withTTL => Memory.backend withTTL
  | .redis keyPrefix => Redis.backend keyPrefix

def sessions : (p : Provider) → SessionStore p.backend
  | .memory withTTL => Memory.sessionStore withTTL
  | .redis keyPrefix => Redis.sessionStore keyPrefix

def cutoffs : (p : Provider) → CutoffStore p.sessions
  | .memory withTTL => Memory.cutoffStore withTTL
  | .redis keyPrefix => Redis.cutoffStore keyPrefix

def equip (a : LocalAuth) : LocalAuth := { a with revocationStore := true, revoker := true }

@[simp] theorem equip_cfg (a : LocalAuth) : (equip a).cfg = a.cfg := rfl

@[reducible] def system (p : Provider) (a : LocalAuth) : System ports (ports.sum p.backend.atoms) :=
  p.backend.system (equip a)

/-- The runs in which the provider's cut-offs of the user are reliable: all of
them in memory, the orderly ones on Redis. -/
abbrev Orderly (p : Provider) (a : LocalAuth) (userID : Str) : Guard (p.system a) :=
  p.cutoffs.Orderly (equip a) userID

end Provider

end Gofi.Iam
