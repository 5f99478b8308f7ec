import Lmalloc.Library.Run
import Lmalloc.Library.Bump
import Lmalloc.Library.Memory
import Lmalloc.Arena.UArenaBlocks
import Lmalloc.Arena.BackEnds
import Lmalloc.Arena.Stack
import Lmalloc.Arena.Scratch
import Lmalloc.Pipe.Ownership
import Lmalloc.Pipe.Delivery
import Lmalloc.Karena.Handles
import Lmalloc.Karena.Isolation
import Lmalloc.Karena.Serving
import Lmalloc.Karena.Bounds
import Lmalloc.Karena.Indices
import Lmalloc.Karena.Regions
import Lmalloc.Karena.Atomicity
import Lmalloc.Postgres.RoundTrip
import Lmalloc.Arena.Tree
import Lmalloc.Strings.Neighbours
import Lmalloc.Strings.SdbString
import Lmalloc.Pipe.Credits
import Lmalloc.Pipe.FillLevel
import Lmalloc.Karena.NullHandle
import Lmalloc.Modbus.Receive
import Lmalloc.Tasks.FailedStart
import Lmalloc.Tasks.ThreadGroup
import Lmalloc.Benchmark.EachSize
import Lmalloc.Host.Leak
import Lmalloc.Benchmark.TimingFile
import Lmalloc.Karena.Release
import Lmalloc.Arena.Bootstrap
import Lmalloc.Arena.Create
import Lmalloc.Arena.Zeroing
import Lmalloc.Karena.Destroy
import Lmalloc.OldKarena.Lookup
import Lmalloc.OldKarena.Capacity
import Lmalloc.Strings.Nested
import Lmalloc.Strings.Formatted
import Lmalloc.Postgres.SqlText
import Lmalloc.Postgres.AnySchema
import Lmalloc.Postgres.Sizing
import Lmalloc.Pipe.Failure
import Lmalloc.Pipe.Destroy
import Lmalloc.Modbus.Splitting
import Lmalloc.Modbus.Inline
import Lmalloc.Modbus.Reconnect
import Lmalloc.Postgres.MainLoop
import Lmalloc.Tasks.ThreadControl
import Lmalloc.Benchmark.Capacity
import Lmalloc.Benchmark.RunNumber
import Lmalloc.Strings.MemSize
import Lmalloc.Strings.LoadedFile
import Lmalloc.Logging.Lock
import Lmalloc.Common.Time
import Lmalloc.Arena.Pool
import Lmalloc.Poc.PageZalloc
import Lmalloc.Poc.Alignment
import Lmalloc.Poc.Memexpand
import Lmalloc.Logging.Line
import Lmalloc.Json.Lookup
import Lmalloc.Handler.EndToEnd
import Lmalloc.Handler.Configured
import Lmalloc.Benchmark.RunTests
