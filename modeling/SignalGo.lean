import SignalGo.Ratchet.Provenance
import SignalGo.Spqr.EpochWrap
import SignalGo.Spqr.Downgrade
import SignalGo.Spqr.Integers
import SignalGo.Ratchet.Paths
import SignalGo.Session.Pointers
import SignalGo.Session.Serving
import SignalGo.CiphertextFormat
import SignalGo.Session.Start
import SignalGo.Spqr.WindowWrap
import SignalGo.SenderKeys.UnknownFields
import SignalGo.Sesame.Staleness
import SignalGo.SenderKeys.Agreement
import SignalGo.SealedSender.Cipher
import SignalGo.BundleFormat
import SignalGo.Sesame.Conversation
