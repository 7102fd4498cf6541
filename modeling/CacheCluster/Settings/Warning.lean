/-! # Warnings

What is noted while a configuration is read: a value that cannot be used and what is used instead.
-/

namespace CacheCluster.Settings

inductive Warning
  /-- The value at a key is not of the type asked for. -/
  | unreadable (key fallback : String)
  | shortHeartbeat (milliseconds : Int)
  | peersPerSend (count : Int)
  | listenerPort (port : Int)
  | batchSize (count : Int)
  | replicationInterval (milliseconds : Int)
  | chunkSize (bytes : Int)
  | multicastOnLocalhost
  | noManualPeers
  deriving DecidableEq, Repr

namespace Warning

/-- The text of a warning; `cause` tells why a value could not be read. -/
def messageWith (cause : String) : Warning → String
  | unreadable key fallback =>
    "Could not parse value for " ++ key ++ ": " ++ cause ++ ". Using the default " ++ fallback ++
      " instead."
  | shortHeartbeat ms =>
    "Heartbeat interval " ++ toString ms ++
      "ms is below the minimum of 1000ms. Using the minimum instead."
  | peersPerSend n =>
    "max peers per send must be positive, got " ++ toString n ++ ". Using the default 500 instead."
  | listenerPort n =>
    "Listener port " ++ toString n ++ " is out of range. Using the default 40001 instead."
  | batchSize n =>
    "Maximum batch size " ++ toString n ++ " is not positive. Using the default 1000 instead."
  | replicationInterval ms =>
    "Trying to set the asynchronous replication interval to an unreasonable number of " ++
      toString ms ++ "ms. Using the default of 1000ms instead."
  | chunkSize n =>
    "Trying to set the chunk size to an unreasonable number " ++ toString n ++
      ". Using the default of 5000000 instead."
  | multicastOnLocalhost =>
    "Explicitly setting the multicast host name to 'localhost' is not recommended. " ++
      "It will only work if all peers are on the same machine."
  | noManualPeers =>
    "Starting manual peer provider with empty list of peers. " ++
      "No replication will occur unless peers are added."

def message (warning : Warning) : String :=
  warning.messageWith "the value is of another type"

end Warning

/-- A value and what was noted on the way to it. -/
@[ext]
structure Noted (α : Type) where
  value : α
  warnings : List Warning := []
  deriving Repr

namespace Noted

/-- A note without a value. -/
def warn (warning : Warning) : Noted Unit := ⟨(), [warning]⟩

instance : Monad Noted where
  pure a := ⟨a, []⟩
  bind x f := ⟨(f x.value).value, x.warnings ++ (f x.value).warnings⟩

variable {α β : Type}

@[simp] theorem value_pure (a : α) : (pure a : Noted α).value = a := rfl

@[simp] theorem warnings_pure (a : α) : (pure a : Noted α).warnings = [] := rfl

@[simp] theorem value_bind (x : Noted α) (f : α → Noted β) :
    (x >>= f).value = (f x.value).value := rfl

@[simp] theorem warnings_bind (x : Noted α) (f : α → Noted β) :
    (x >>= f).warnings = x.warnings ++ (f x.value).warnings := rfl

@[simp] theorem value_map (f : α → β) (x : Noted α) : (f <$> x).value = f x.value := rfl

@[simp] theorem warnings_map (f : α → β) (x : Noted α) : (f <$> x).warnings = x.warnings :=
  List.append_nil x.warnings

instance : LawfulMonad Noted :=
  .mk' Noted (fun _ => Noted.ext rfl (List.append_nil _)) (fun _ _ => rfl)
    (fun _ _ _ => Noted.ext rfl (List.append_assoc ..))

end Noted

end CacheCluster.Settings
