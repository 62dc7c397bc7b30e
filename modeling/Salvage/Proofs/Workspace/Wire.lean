import Salvage.Proofs.Action
import Salvage.Proofs.Message.Wire
import Salvage.Provider.Queue
import Salvage.Workspace

/-!
# Both ends of the wire

A message goes through the queue as a text: one side writes it, the other side reads it. The text
that is sent is handled as the message itself, and the other texts that are written, for requests,
responses and events, are read back as well. Nothing is asked of strings, and of numbers only that
they have the sizes that the other side has room for.
-/

namespace Salvage

/-- Every call is kept, however it is answered. -/
theorem Provider.calls_call {κ ρ : Type} (wrap : String → Error) (c : κ) (p : Provider κ ρ) :
    (Provider.call wrap c p).2.calls = p.calls ++ [c] := by
  unfold Provider.call
  dsimp only
  split <;> rfl

/-- Sending a message makes one call, with the printed message as its body. -/
theorem QueueService.calls_send (url : String) (m : RestoreMessage) (s : QueueService) :
    (QueueService.send url m s).2.calls = s.calls ++ [.send url (String.ofList m.print)] := by
  rw [QueueService.send, Action.bind_pure_apply _ fun _ => ()]
  exact Provider.calls_call _ _ s

/-- What one side writes the other side reads. The body that is sent for a message is read as that
message, and handling it restores the package of the message. Requests, responses and events are
read as they were written, too. -/
theorem wire_round_trip :
    (∀ m : RestoreMessage, m.InRange → ∀ (url : String) (s : QueueService), ∃ body,
      (QueueService.send url m s).2.calls = s.calls ++ [.send url body] ∧
        RestoreMessage.reader.readAll body = .ok m ∧
        ∀ token id receipt, Workspace.handle token ⟨id, receipt, body⟩ =
          do let _ ← Workspace.restore token m; return ()) ∧
      (∀ r : RestoreRequest, RestoreRequest.reader.readAll (String.ofList r.print) = .ok r) ∧
      (∀ r : RestoreResponse, RestoreResponse.reader.readAll (String.ofList r.print) = .ok r) ∧
      ∀ e : Event, e.InRange → Event.reader.readAll (String.ofList e.print) = .ok e := by
  refine ⟨fun m hm url s => ?_, fun r => ?_, fun r => ?_, fun e he => ?_⟩
  · have hread : RestoreMessage.reader.readAll (String.ofList m.print) = .ok m :=
      (takes_message hm).readAll (by decide)
    refine ⟨_, QueueService.calls_send url m s, hread, fun token id receipt => ?_⟩
    rw [Workspace.handle, hread]
  · exact (takes_request r).readAll (by decide)
  · exact (takes_response r).readAll (by decide)
  · exact (takes_event he).readAll (by decide)

/-- A message with extreme numbers, with all kinds of characters and without a parent. -/
def extremeMessage : RestoreMessage :=
  ⟨-2147483648, 9223372036854775807, "\x00\x1f\"\\/\n😀", ⟨-9223372036854775808, "", "\x7f\t",
    none, .timeSeries, some (-1)⟩⟩

/-- An event that has a folder and has got its old name back. -/
def extremeEvent : Event :=
  ⟨0, "\x08", "é", none, some ⟨-9223372036854775808, "\x0c\r", "null"⟩⟩

/-- Extreme messages and events go through the wire, even if the queue does not answer. -/
theorem wire_round_trip_extreme :
    (∃ body, (QueueService.send "https://queue" extremeMessage ⟨[], "closed", []⟩).2.calls =
        [.send "https://queue" body] ∧
      RestoreMessage.reader.readAll body = .ok extremeMessage) ∧
    Event.reader.readAll (String.ofList extremeEvent.print) = .ok extremeEvent := by
  have hm : extremeMessage.InRange := ⟨by decide, by decide, by decide, by decide, by decide⟩
  have he : extremeEvent.InRange := ⟨by decide, by decide⟩
  obtain ⟨hmessages, -, -, hevents⟩ := wire_round_trip
  obtain ⟨body, hsent, hread, -⟩ := hmessages extremeMessage hm "https://queue" ⟨[], "closed", []⟩
  exact ⟨⟨body, hsent, hread⟩, hevents extremeEvent he⟩

end Salvage
