import AccessBridge.Diagnostics
import AccessBridge.Thread
import AccessBridge.Proofs.Tree.Acceptance
import AccessBridge.Proofs.Tree.HitTest
import AccessBridge.Proofs.Bridge.Requests
import AccessBridge.Proofs.Bridge.Closing
import AccessBridge.Proofs.Bridge.Pending
import AccessBridge.Proofs.Adapter.Offers
import AccessBridge.Proofs.Adapter.Records
import AccessBridge.Proofs.Adapter.Brackets
import AccessBridge.Proofs.Adapter.Activation
import AccessBridge.Proofs.Adapter.Issued
import AccessBridge.Proofs.Bridge.Order
import AccessBridge.Proofs.Bridge.Wakes
import AccessBridge.Proofs.Bridge.Confinement
import AccessBridge.Proofs.Adapter.Effects
import AccessBridge.Proofs.Tree.Account
import AccessBridge.Proofs.Tree.Removal
import AccessBridge.Proofs.Tree.Moving
import AccessBridge.Proofs.Adapter.Updates
import AccessBridge.Proofs.Tree.Undoing
import AccessBridge.Proofs.Tree.Raising
import AccessBridge.Proofs.Tree.Dependence
import AccessBridge.Proofs.Tree.Preorder
import AccessBridge.Proofs.Tree.Termination
import AccessBridge.Proofs.Tree.Refusals
import AccessBridge.Proofs.Adapter.FocusLookup
