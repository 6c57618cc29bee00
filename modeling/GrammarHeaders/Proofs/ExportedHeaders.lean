import GrammarHeaders.Proofs.Footprint
import GrammarHeaders.Proofs.HeaderCopies
import GrammarHeaders.Proofs.PathOrder
import GrammarHeaders.Proofs.Reannotation

namespace GrammarHeaders

variable {s t u : Session} {d d' : Disk} {repo dir out p file : Path} {root : RootLibrary}
  {layout : LayoutSettings} {config : Config} {sources copies : List Path} {l : Location} {n : String}
  {extensions : List String} {recursive : Bool}

namespace Disk

end Disk

end GrammarHeaders
