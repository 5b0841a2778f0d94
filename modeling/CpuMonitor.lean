import CpuMonitor.Text.Blank
import CpuMonitor.Text.Numeral
import CpuMonitor.Ordered.Map
import CpuMonitor.Binary64.Arithmetic
import CpuMonitor.Decimal.Shortest
import CpuMonitor.Time.Text
import CpuMonitor.Metric.Name
import CpuMonitor.Request.Selection
import CpuMonitor.Request.File
import CpuMonitor.Host.ProcStat
import CpuMonitor.Host.TickTable
import CpuMonitor.Watcher.Report
import CpuMonitor.Watcher.Schedule
import CpuMonitor.CommandLine.Output
import CpuMonitor.Main
import CpuMonitor.Proofs.Host.CoreNumbers
import CpuMonitor.Proofs.Request.FileReading
import CpuMonitor.Proofs.CommandLine.ListText
import CpuMonitor.Proofs.CommandLine.Header
import CpuMonitor.Proofs.CommandLine.Layers
import CpuMonitor.Proofs.Watcher.Deadlines
import CpuMonitor.Proofs.Watcher.Filling
import CpuMonitor.Proofs.Series.Averages
import CpuMonitor.Proofs.Series.Availability
import CpuMonitor.Proofs.Watcher.Failures
import CpuMonitor.Proofs.Series.Spacing
import CpuMonitor.Proofs.Watcher.DeadlineGrid
import CpuMonitor.Proofs.Host.StatFaults
import CpuMonitor.Proofs.Host.TickRows
import CpuMonitor.Proofs.Metric.WindowText
import CpuMonitor.Proofs.Time.DurationText
import CpuMonitor.Proofs.Metric.NameText
import CpuMonitor.Proofs.Watcher.Flattening
import CpuMonitor.Proofs.Host.ClockRate
import CpuMonitor.Proofs.Binary64.Bits
import CpuMonitor.Proofs.Decimal.Places
import CpuMonitor.Proofs.CommandLine.HeaderDuration
import CpuMonitor.Proofs.Metric.NameOrder
import CpuMonitor.Proofs.Binary64.FourPlaces
