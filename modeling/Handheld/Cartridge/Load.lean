import Handheld.Cartridge.Basic
import Handheld.Cartridge.Header
import Handheld.Files.Basic

/-!
# Loading a cartridge
-/

namespace Handheld.Cartridge

/-- What an image holds: its header and the cartridge it describes. -/
structure Loaded where
  header : Header
  cartridge : Cartridge

/-- Reads the header of an image and builds the controller it asks for. A controller that is not
known is found out last. -/
def load (image : ByteArray) (clockHz : Nat) : Except Fault Loaded :=
  match Header.parse image with
  | .error fault => .error fault
  | .ok header =>
    match Kind.ofCode? header.kind with
    | none => .error (.unsupportedKind header.kind)
    | some kind =>
      let controller := Controller.powerOn kind (header.ramBanks * Ram.bankSize) clockHz
      .ok { header, cartridge := { image, controller } }

def Loaded.event (l : Loaded) : Event :=
  .cartridgeLoaded l.header.title l.header.kind l.header.romBanks l.header.ramBanks

/-- Reads an image from a file, with what is reported of it. -/
def readImage {m : Type → Type} [Monad m] (files : Files m) (path : String) :
    m (Except Fault (ByteArray × Event)) := do
  match ← files.read path with
  | .ok image => return .ok (image, .imageRead image.size path)
  | .error cause => return .error (.file path cause)

end Handheld.Cartridge
