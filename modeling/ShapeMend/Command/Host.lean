import ShapeMend.Event
import ShapeMend.Files.Tree

/-!
# Hosts

A host is what a command runs in: a storage, an input, and a place where events
are reported.
-/

namespace ShapeMend

open ShapeMend.Files

structure Host (m : Type → Type) where
  storage : Storage m
  input : m (List UInt8)
  note : Event → m Unit

def Host.inTree (input : List UInt8) : Host (StateM FileTree) where
  storage := FileTree.storage
  input := return input
  note _ := return ()

end ShapeMend
