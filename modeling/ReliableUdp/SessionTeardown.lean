import ReliableUdp.SessionSteps

/-! Teardown of a session: it happens once, completes every parked receive and leaves the queued
messages to later receives. -/
namespace ReliableUdp.SessionTeardown
open Protocol ChannelCommon ReliableChannel Session SessionSteps

variable {O U : Type}

def calls (handler : ℕ) (es : List Event) : ℕ :=
  es.countP fun
    | .asyncRecv _ _ h => h == handler
    | _ => false

variable [CongestionCtrl O] [CongestionCtrl U]

def run (codec : PacketCodec) (s : BasicSession O U) (es : List Event) : BasicSession O U :=
  es.foldl (BasicSession.step codec) s

lemma run_concat (codec : PacketCodec) (s : BasicSession O U) (es : List Event) (e : Event) :
    run codec s (es ++ [e]) = (run codec s es).step codec e := List.foldl_concat ..

end ReliableUdp.SessionTeardown
