import Tpcc.Check.Grid
import Tpcc.Db.Bulk
import Tpcc.Db.Closure
import Tpcc.Db.ConnectionString
import Tpcc.Db.TxnMirror
import Tpcc.Future.ExactlyOnce
import Tpcc.Import.Coverage
import Tpcc.Import.Overflow
import Tpcc.Import.Rows
import Tpcc.Isolation.Checked
import Tpcc.Isolation.Integrity
import Tpcc.Isolation.Isolated
import Tpcc.Isolation.Quiet
import Tpcc.Isolation.Reads
import Tpcc.Isolation.Serializable
import Tpcc.Log.Capture
import Tpcc.Rng.Period
import Tpcc.Rng.Unbiased
import Tpcc.Serial.AllLocal
import Tpcc.Serial.Consistency
import Tpcc.Serial.NoStop
import Tpcc.Serial.Stock
import Tpcc.Spsc.Linearizable
import Tpcc.Stats.Aggregate
import Tpcc.Stats.Construction
import Tpcc.Stats.Interval
import Tpcc.Stats.Load
import Tpcc.TaskQueue.Admission
import Tpcc.TaskQueue.Disposal
import Tpcc.TaskQueue.InflightWait
import Tpcc.Terminal.Accounting
import Tpcc.Terminal.Mix
import Tpcc.Terminal.Sizing
import Tpcc.ThreadPool
import Tpcc.TimerQueue.Refinement
import Tpcc.TimerQueue.Resize
import Tpcc.TimerQueue.Sleep
