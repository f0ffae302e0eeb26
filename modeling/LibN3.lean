import LibN3.Runs
import LibN3.Buffer
import LibN3.BufferQueue
import LibN3.QueueRuns
import LibN3.Accounting
import LibN3.Splits
import LibN3.Assertions
import LibN3.Builds
import LibN3.Exceptions
import LibN3.Reentrancy
import LibN3.Descriptors
import LibN3.Epoll
import LibN3.Executor
import LibN3.Socket
import LibN3.Consume
import LibN3.Stream
import LibN3.EventMask
import LibN3.Timer
import LibN3.TimerLog
import LibN3.TimerList
import LibN3.TimerOrder
import LibN3.Holders
import LibN3.EpollLifetimes
import LibN3.ExecutorHandles
import LibN3.Coroutine
import LibN3.Custody
import LibN3.Moves
import LibN3.Swaps
import LibN3.QueueMove
import LibN3.Pipe
import LibN3.Error
import LibN3.Address
import LibN3.Sockopt
import LibN3.Syscalls
import LibN3.Dns
import LibN3.Answers
import LibN3.Messages
import LibN3.Once
import LibN3.PageSize
import LibN3.WaitTimeout
import LibN3.RunLoop
import LibN3.Halves
import LibN3.Sockaddr
import LibN3.OptionValue
import LibN3.NameResolution
import LibN3.Completion
import LibN3.Sends
import LibN3.IoUring
import LibN3.Segments
import LibN3.Execute
import LibN3.Tasks
