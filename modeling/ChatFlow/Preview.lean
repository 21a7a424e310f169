import ChatFlow.Message

/-!
# Previews

A preview runs a flow without a backend. Messages are recorded and forwarded, requests for input are
counted, and speech is recorded and reported as played back at once.
-/

namespace ChatFlow

structure Preview where
  /-- The messages since the record was last cleared. -/
  recorded : List Message := []
  forwarded : List Message := []
  textRequests : Nat := 0
  voiceRequests : Nat := 0
  spoken : List String := []
  /-- Those who want to know when playback is complete, each as often as it subscribed. -/
  subscribers : List String := []
  told : Table String Nat := []
  deriving DecidableEq, Repr, Inhabited

namespace Preview

def deliver (p : Preview) (m : Message) : Preview :=
  { p with recorded := p.recorded ++ [m], forwarded := p.forwarded ++ [m] }

def bySender (p : Preview) (sender : Sender) : List Message :=
  p.recorded.filter (·.sender = sender)

def clear (p : Preview) : Preview :=
  { p with recorded := [] }

def requestText (p : Preview) : Preview :=
  { p with textRequests := p.textRequests + 1 }

def requestVoice (p : Preview) : Preview :=
  { p with voiceRequests := p.voiceRequests + 1 }

def subscribe (p : Preview) (who : String) : Preview :=
  { p with subscribers := p.subscribers ++ [who] }

/-- Take back one subscription, the first one. -/
def unsubscribe (p : Preview) (who : String) : Preview :=
  { p with subscribers := p.subscribers.erase who }

def tell (p : Preview) (who : String) : Preview :=
  { p with told := p.told.insert who ((p.told.get? who).getD 0 + 1) }

def speak (p : Preview) (text : String) : Preview :=
  p.subscribers.foldl tell { p with spoken := p.spoken ++ [text] }

end Preview

end ChatFlow
