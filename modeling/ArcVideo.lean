import ArcVideo.Conc.Program
import ArcVideo.Conc.Monitor
import ArcVideo.Conc.Ring
import ArcVideo.Conc.Machine
import ArcVideo.Conc.Pieces
import ArcVideo.Conc.Ledger
import ArcVideo.Conc.Words
import ArcVideo.Conc.Transducer
import ArcVideo.Conc.Rank
import ArcVideo.Conc.Best
import ArcVideo.Conc.Backlog
import ArcVideo.Decoder.Packets
import ArcVideo.Decoder.Threads
import ArcVideo.Decoder.Moves
import ArcVideo.Decoder.RingBuffer
import ArcVideo.Decoder.NextFrame
import ArcVideo.Decoder.Mutex
import ArcVideo.Decoder.PacketLoops
import ArcVideo.Decoder.Routing
import ArcVideo.Decoder.Ownership
import ArcVideo.Decoder.Cleanup
import ArcVideo.Decoder.Handle
import ArcVideo.Decoder.Counters
import ArcVideo.Decoder.Sequential
import ArcVideo.Decoder.Waiting
import ArcVideo.Decoder.Dispose
import ArcVideo.Decoder.Filling
import ArcVideo.Decoder.Timestamps
import ArcVideo.Decoder.Streams
import ArcVideo.Load.Native
import ArcVideo.Load.Readers
import ArcVideo.Load.Release
import ArcVideo.Load.Retry
import ArcVideo.Load.Input
import ArcVideo.Load.Avio
import ArcVideo.Load.Stream
import ArcVideo.Load.Seekback
import ArcVideo.Load.Probe
import ArcVideo.Codec.Decode
import ArcVideo.Codec.Jobs
import ArcVideo.Codec.Exchanges
import ArcVideo.Codec.Draining
import ArcVideo.Codec.Film
import ArcVideo.Audio.Blocks
import ArcVideo.Audio.Silence
import ArcVideo.Audio.Sound
import ArcVideo.Player.Player
import ArcVideo.Player.Forget
import ArcVideo.Player.Objects
import ArcVideo.Player.Calls
import ArcVideo.Player.Resources
import ArcVideo.Player.Order
import ArcVideo.Player.Callback
import ArcVideo.Player.Playback
import ArcVideo.Player.NewFrames
import ArcVideo.Player.Ending
import ArcVideo.Player.Clock
import ArcVideo.Player.Failed
import ArcVideo.Player.Early
import ArcVideo.Picture.FrameBuffer
import ArcVideo.Picture.Upload
import ArcVideo.Player.Drawn
import ArcVideo.Picture.Scaling
import ArcVideo.Player.Film
