import MixedInteger.SearchTree.Tracker
import MixedInteger.Telemetry.Payload

/-! # Announcements about the search tree

Two kinds of payload announce changes of the search tree: a new node is added,
and a closed node is pruned. Every other payload leaves the tree as it is.
-/

namespace MixedInteger.Tracker

/-- Judge a payload without recording it. -/
def check (tracker : Tracker) : Payload → Except ProtocolError Unit
  | .addNode body => tracker.checkAdd body.coordinate
  | .pruneNode body => tracker.checkPrune body.coordinate
  | _ => .ok ()

/-- Apply the part of a payload that concerns the search tree. -/
def apply (tracker : Tracker) : Payload → Except ProtocolError Tracker
  | .addNode body => tracker.add body.coordinate
  | .pruneNode body => tracker.prune body.coordinate
  | _ => .ok tracker

end MixedInteger.Tracker
