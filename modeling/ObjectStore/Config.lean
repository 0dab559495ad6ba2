/-!
# Configuration

How a bucket uploads and how it watches copies.  Each setting has a default; the value zero, where
it makes no sense, stands for the default or for the least sensible value.
-/

namespace ObjectStore

/-- The settings of a bucket. -/
structure Config where
  /-- The size of each block that a writer uploads. -/
  blockSize : Nat := 8388608
  /-- The number of blocks that a writer uploads at once. -/
  buffers : Nat := 5
  /-- The milliseconds between two looks at a copy. -/
  pollInterval : Nat := 500
  /-- The number of failed looks in a row that end the watch over a copy. -/
  pollRetries : Nat := 3
deriving DecidableEq, Repr

namespace Config

/-- The settings that hold where nothing else is said. -/
def default : Config := {}

/-- Sets the size of the blocks; zero restores the default. -/
def setBlockSize (size : Nat) (config : Config) : Config :=
  { config with blockSize := if size = 0 then default.blockSize else size }

/-- Sets the number of blocks at once; zero restores the default. -/
def setBuffers (buffers : Nat) (config : Config) : Config :=
  { config with buffers := if buffers = 0 then default.buffers else buffers }

/-- Sets the milliseconds between two looks at a copy. -/
def setPollInterval (interval : Nat) (config : Config) : Config :=
  { config with pollInterval := interval }

/-- Sets the number of failed looks that end the watch over a copy, at least one. -/
def setPollRetries (retries : Nat) (config : Config) : Config :=
  { config with pollRetries := max 1 retries }

end Config

end ObjectStore
