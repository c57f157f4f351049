import CommandLog.CommandLine.Matching
import CommandLog.CommandLine.Number
import CommandLog.Duration
import CommandLog.Net.SocketAddress

/-!
The settings of a server, and the command line that gives them. What the command line leaves out has
the same value as in the default settings.
-/

namespace CommandLog

open CommandLog.CommandLine
open CommandLog.Net (SocketAddress)

structure Settings where
  capacity : Nat := 10
  readBuffer : Nat := 1024
  reapInterval : Duration := .ofMilliseconds 100
  lockTimeout : Duration := .ofSeconds 5
  shutdownGrace : Duration := .ofSeconds 1
deriving DecidableEq, Repr

/-- What a command line says; times are in milliseconds. -/
structure Options where
  listen : SocketAddress
  capacity : Nat
  readBuffer : Nat
  reapInterval : Nat
  lockTimeout : Nat
  shutdownGrace : Nat
deriving DecidableEq, Repr

namespace Options

def initial : Options where
  listen := .v4 [0, 0, 0, 0] 9000
  capacity := 10
  readBuffer := 1024
  reapInterval := 100
  lockTimeout := 5000
  shutdownGrace := 1000

def settings (options : Options) : Settings where
  capacity := options.capacity
  readBuffer := options.readBuffer
  reapInterval := .ofMilliseconds options.reapInterval
  lockTimeout := .ofMilliseconds options.lockTimeout
  shutdownGrace := .ofMilliseconds options.shutdownGrace

def maxCapacity : Nat := 1 <<< 20

def maxReadBuffer : Nat := 16 <<< 20

def capacityBounds : Bounds := ⟨1, some maxCapacity⟩

def readBufferBounds : Bounds := ⟨1, some maxReadBuffer⟩

def reapIntervalBounds : Bounds := ⟨1, none⟩

def readAddress (raw : Bytes) : Except ValueFault SocketAddress :=
  match Text.Utf8.decode? raw with
  | none => .error .notUtf8
  | some text =>
      match SocketAddress.parse? text with
      | some address => .ok address
      | none => .error (.invalid "invalid socket address syntax")

def numeric (label description : String) (bounds : Bounds) (change : Nat → Options → Options) :
    Parameter Options :=
  ⟨label, description, fun raw => (readBounded bounds raw).map change⟩

def grammar : Grammar Options where
  about := "Bounded circular command log served over a line-oriented TCP protocol"
  usage := "aesdsocket [OPTIONS]"
  version := "log-server 0.1.0\n"
  positionals := []
  stacksHelp := true
  flags := [
    ("listen",
      ⟨"--listen <LISTEN>",
        "Socket address the server should bind to. Use port 0 for an ephemeral port " ++
          "[default: 0.0.0.0:9000]",
        fun raw => (readAddress raw).map fun listen options => { options with listen }⟩),
    ("capacity",
      numeric "--capacity <CAPACITY>"
        "Number of commands retained before the oldest is overwritten [default: 10]"
        capacityBounds fun capacity options => { options with capacity }),
    ("read-buffer",
      numeric "--read-buffer <READ_BUFFER>"
        "Bytes requested from a client socket per read [default: 1024]"
        readBufferBounds fun readBuffer options => { options with readBuffer }),
    ("reap-interval-ms",
      numeric "--reap-interval-ms <REAP_INTERVAL_MS>"
        "Milliseconds between sweeps that reap finished sessions [default: 100]"
        reapIntervalBounds fun reapInterval options => { options with reapInterval }),
    ("lock-timeout-ms",
      numeric "--lock-timeout-ms <LOCK_TIMEOUT_MS>"
        "Milliseconds a command waits for the log lock before failing [default: 5000]"
        .any fun lockTimeout options => { options with lockTimeout }),
    ("shutdown-grace-ms",
      numeric "--shutdown-grace-ms <SHUTDOWN_GRACE_MS>"
        "Milliseconds sessions get to finish on shutdown before being aborted [default: 1000]"
        .any fun shutdownGrace options => { options with shutdownGrace })]

def parse (arguments : List Bytes) : Except UsageError Options := grammar.parse initial arguments

end Options

end CommandLog
